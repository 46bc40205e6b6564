import ParseReport.Session.Basic

/-!
# Calls on a session

The operations of a session as data. A run answers call after call; a refused
call leaves the session as it is and the run goes on.
-/

namespace ParseReport.Session

inductive Call
  | worry (concern : Concern)
  | regret (concern : Concern)
  | raise (concern : Concern)
  | expressConcerns
  | setFilename (filename : Text)
  | setLimit (limit : UInt64)
  | concerns
  deriving DecidableEq, Repr

inductive Reply
  | accepted
  | failed (failure : Failure)
  | listed (diagnostics : List Diagnostic)
  deriving DecidableEq, Repr

/-- The answer to one call: its reply, the session after it and what it logged. -/
structure Answer where
  reply : Except Misuse Reply
  session : Session
  event? : Option Event

/-- The reply of an accepted call. -/
def Outcome.reply (o : Outcome) : Reply :=
  match o.failure with
  | none => .accepted
  | some failure => .failed failure

/-- Answers a call that changed the session or was refused. -/
def Answer.ofOutcome (s : Session) : Except Misuse Outcome → Answer
  | .error misuse => ⟨.error misuse, s, none⟩
  | .ok outcome => ⟨.ok outcome.reply, outcome.session, some outcome.event⟩

/-- Answers one call. -/
def attempt (s : Session) : Call → Answer
  | .worry concern => .ofOutcome s (s.worry concern)
  | .regret concern => .ofOutcome s (s.regret concern)
  | .raise concern => .ofOutcome s (s.raise concern)
  | .expressConcerns => .ofOutcome s s.expressConcerns
  | .setFilename filename => .ofOutcome s (s.setFilename filename)
  | .setLimit limit => .ofOutcome s (s.setLimit limit)
  | .concerns => ⟨.ok (.listed s.concerns), s, none⟩

/-- Answers the calls in order. -/
def run : Session → List Call → List Answer
  | _, [] => []
  | s, call :: calls =>
    let answer := s.attempt call
    answer :: answer.session.run calls

/-- The session after the calls. -/
def after (s : Session) (calls : List Call) : Session :=
  calls.foldl (fun s call => (s.attempt call).session) s

/-- All that is logged by the calls and by the end of the session after them. -/
def log (s : Session) (calls : List Call) : List Event :=
  (s.run calls).filterMap Answer.event? ++ (s.after calls).dropEvent?.toList

end ParseReport.Session
