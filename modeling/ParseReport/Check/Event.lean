import ParseReport.Session.Event

/-!
# Events of a check

A check logs its start, each delimiter that opens or is closed, what its session
logs, and its end when nothing was found.
-/

namespace ParseReport.Check

inductive Event
  | started (filename : Text)
  | opened (delimiter : Char) (offset : Nat)
  /-- A closing delimiter at `offset` met its opening partner. -/
  | closed (opener closer : Char) (offset : Nat)
  | session (event : Session.Event)
  | finished (pairs lines : Nat)
  deriving DecidableEq, Repr

namespace Event
open Log

/-- The log record of the event. -/
def record : Event → Record
  | started filename => ⟨.debug, "check started".toList, [textField "filename" filename]⟩
  | opened delimiter offset =>
    ⟨.trace, "delimiter opened".toList,
      [textField "open" [delimiter], numberField "offset" offset]⟩
  | closed opener closer offset =>
    ⟨.trace, "delimiter closed".toList,
      [textField "open" [opener], textField "close" [closer], numberField "offset" offset]⟩
  | session event => event.record
  | finished pairs lines =>
    ⟨.debug, "check finished cleanly".toList,
      [numberField "pairs" pairs, numberField "lines" lines]⟩

end Event

end ParseReport.Check
