import ParseReport.Diagnostic

/-!
# Failures

A failure holds every diagnostic that the caller of a parse has to see, in
order, and why the parse failed.
-/

namespace ParseReport

inductive Cause
  /-- A panic was raised; what was buffered is gone. -/
  | panic
  /-- The buffered diagnostics reached the limit. -/
  | limitExceeded (limit : Nat)
  /-- The parse came to its end with diagnostics buffered. -/
  | concerns
  deriving DecidableEq, Repr

structure Failure where
  filename : Text
  diagnostics : List Diagnostic
  cause : Cause
  deriving DecidableEq, Repr

namespace Failure

/-- Number of diagnostics of one severity. -/
def count (f : Failure) (s : Severity) : Nat :=
  (f.diagnostics.filter (·.severity = s)).length

/-- Whether reaching the limit forced the failure. -/
def isEscalated (f : Failure) : Bool :=
  match f.cause with
  | .limitExceeded _ => true
  | _ => false

def messages (f : Failure) : List Text := f.diagnostics.map Diagnostic.message

/-- The same failure without the parsed texts. -/
def detach (f : Failure) : Except Fault Failure := do
  return { f with diagnostics := ← f.diagnostics.mapM Diagnostic.detach }

end Failure

end ParseReport
