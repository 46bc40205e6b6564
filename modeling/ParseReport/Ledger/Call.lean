import ParseReport.Ledger.Basic

/-!
# Calls on a ledger

The operations of a ledger as data. A refused call leaves the ledger as it is,
and the calls after it are answered all the same.
-/

namespace ParseReport.Ledger

inductive Call
  | record (d : Diagnostic)
  | drain
  | list
  | setFilename (filename : Text)
  | setLimit (limit : UInt64)
  deriving DecidableEq, Repr

inductive Reply
  | recorded (action : Action)
  | listed (diagnostics : List Diagnostic)
  | done
  deriving DecidableEq, Repr

/-- Carries out one call. -/
def perform (l : Ledger) : Call → Except Misuse (Reply × Ledger)
  | .record d => (l.record d).map fun (action, l) => (.recorded action, l)
  | .drain => .ok (.listed l.drain.1, l.drain.2)
  | .list => .ok (.listed l.toList, l)
  | .setFilename filename => .ok (.done, l.setFilename filename)
  | .setLimit limit => (l.setLimit limit).map (.done, ·)

/-- The answer to a call, and the ledger after it. -/
def attempt (l : Ledger) (call : Call) : Except Misuse Reply × Ledger :=
  match l.perform call with
  | .error misuse => (.error misuse, l)
  | .ok (reply, l) => (.ok reply, l)

/-- Answers the calls in order; each answer comes with the ledger after it. -/
def run : Ledger → List Call → List (Except Misuse Reply × Ledger)
  | _, [] => []
  | l, call :: calls =>
    let answer := l.attempt call
    answer :: answer.2.run calls

end ParseReport.Ledger
