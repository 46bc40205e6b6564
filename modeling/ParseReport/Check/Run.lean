import ParseReport.Check.Scan
import ParseReport.Display.Report

/-!
# Checks

A check accepts a text only if nothing at all was reported on it, and then says
how many pairs of delimiters and how many lines it has.
-/

namespace ParseReport

namespace Check

/-- What a clean check saw. -/
structure Summary where
  /-- Delimiters closed by their partners. -/
  pairs : Nat
  lines : Nat
  deriving DecidableEq, Repr

/-- Why a check did not succeed. -/
inductive Error
  /-- The file at `path` could not be read. -/
  | unreadable (path reason : Text)
  /-- The text does not fit in 32-bit offsets. -/
  | tooLarge (error : SpanError)
  /-- The text has problems. -/
  | reported (failure : Failure)
  deriving DecidableEq, Repr

namespace Error

def message : Error → Except Fault Text
  | unreadable path reason => .ok ("cannot read ".toList ++ path ++ ": ".toList ++ reason)
  | tooLarge error => .ok ("input too large: ".toList ++ error.message)
  | reported failure => failure.render

/-- The same error without the checked text. -/
def detach : Error → Except Fault Error
  | unreadable path reason => .ok (unreadable path reason)
  | tooLarge error => .ok (tooLarge error)
  | reported failure => failure.detach.map reported

end Error

/-- The result of a check and all that it logged. -/
structure Outcome where
  result : Except Error Summary
  log : List Event

/-- The whole log, with what the end of the session adds to it. -/
def Scan.closedLog (s : Scan) : List Event :=
  s.log.toList ++ (s.session.dropEvent?.map .session).toList

/-- The outcome of a scan of `t` that came to its end or failed. -/
def Progress.outcome (p : Progress) (t : Text) : Outcome :=
  match p with
  | going s =>
    let lines := t.lineCount
    ⟨.ok ⟨s.pairs, lines⟩, (s.note (.finished s.pairs lines)).closedLog⟩
  | failed s failure => ⟨.error (.reported failure), s.closedLog⟩

end Check

/-- Checks a text with a session of its own. -/
def check (t : Text) (config : Config) : Except Check.Breach Check.Outcome :=
  match Span.ofRange 0 t.size with
  | .error error => .ok ⟨.error (.tooLarge error), []⟩
  | .ok _ => do
    let session ← (Session.ofConfig config).mapError .misuse
    return (← Check.scan t session).outcome t

end ParseReport
