import ParseReport.Log
import ParseReport.Severity

/-!
# Session events

Every accepted call that changes a session is logged as one event. A call that
is refused logs nothing.
-/

namespace ParseReport.Session

inductive Event
  /-- A diagnostic was stored as number `buffered`. -/
  | buffered (severity : Severity) (kind : Text) (buffered : Nat)
  /-- A diagnostic was stored as the last one that the limit allows. -/
  | limitReached (severity : Severity) (kind : Text) (limit count : Nat) (filename : Text)
  | panicRaised (kind : Text) (discarded : Nat) (filename : Text)
  | concludedCleanly (filename : Text)
  | concludedWithConcerns (count : Nat) (filename : Text)
  | filenameSet (filename : Text)
  | limitSet (limit : Nat)
  /-- The session ended while active, with diagnostics that nobody saw. -/
  | dropped (count : Nat) (filename : Text)
  deriving DecidableEq, Repr

namespace Event
open Log

/-- Whether the event ends the life of its session. -/
def isEnding : Event → Bool
  | limitReached .. | panicRaised .. | concludedCleanly _ | concludedWithConcerns .. => true
  | _ => false

/-- The log record of the event. -/
def record : Event → Record
  | buffered severity kind count =>
    ⟨.trace, "concern buffered".toList,
      [textField "severity" severity.label, textField "kind" kind, numberField "buffered" count]⟩
  | limitReached severity kind limit count filename =>
    ⟨.debug, "concern limit reached".toList,
      [textField "severity" severity.label, textField "kind" kind, numberField "limit" limit,
        numberField "count" count, textField "filename" filename]⟩
  | panicRaised kind discarded filename =>
    ⟨.debug, "panic raised".toList,
      [textField "kind" kind, numberField "discarded" discarded, textField "filename" filename]⟩
  | concludedCleanly filename =>
    ⟨.debug, "session concluded cleanly".toList, [textField "filename" filename]⟩
  | concludedWithConcerns count filename =>
    ⟨.debug, "session concluded with concerns".toList,
      [numberField "count" count, textField "filename" filename]⟩
  | filenameSet filename =>
    ⟨.debug, "session filename set".toList, [textField "filename" filename]⟩
  | limitSet limit => ⟨.debug, "session limit set".toList, [numberField "limit" limit]⟩
  | dropped count filename =>
    ⟨.warn, "reporting session dropped with unexpressed concerns".toList,
      [numberField "count" count, textField "filename" filename]⟩

end Event

end ParseReport.Session
