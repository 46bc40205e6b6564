import ParseReport.Proofs.SessionStep

/-!
# Sessions changed in place

What an operation does to a session and logs before it refuses a call is not taken back. Here every
operation is written as the single changes that it makes, in their order, and each comes to the same
answer as in one piece: it refuses before its first change or not at all.
-/

namespace ParseReport.Session

/-- What a call works on: a session, and the log so far. -/
structure Live where
  session : Session
  log : List Event

/-- Work in place. A misuse ends it and leaves all that was done until then. -/
abbrev InPlace := EStateM Misuse Live

/-- The reply of an operation that was not refused. -/
def Reply.ofFailure? : Option Failure → Reply
  | none => .accepted
  | some failure => .failed failure

namespace InPlace

section Changes

def ledger : InPlace Ledger := return (← get).session.ledger

def setLedger (ledger : Ledger) : InPlace Unit :=
  modify fun live => { live with session := { live.session with ledger } }

def setPhase (phase : Phase) : InPlace Unit :=
  modify fun live => { live with session := { live.session with phase } }

def emit (event : Event) : InPlace Unit :=
  modify fun live => { live with log := live.log ++ [event] }

def ensureActive (operation : Operation) : InPlace Unit := do
  let s := (← get).session
  if s.phase ≠ .active then throw (.notActive operation s.ledger.filename s.phase)

/-- Stores a diagnostic, unless it is a panic. The action is worked out before it is stored. -/
def store (d : Diagnostic) : InPlace Action := do
  let l ← ledger
  let action := Action.classify l.size l.limit d.severity
  if action ≠ .raiseImmediately then setLedger (l.add d)
  return action

/-- Stores a diagnostic as a debug build does, which asserts first that it is no panic. -/
def record (d : Diagnostic) : InPlace Action := do
  if d.severity.isBufferable = false then throw .panicRecorded
  store d

/-- Takes everything out, in order. -/
def drain : InPlace (List Diagnostic) := do
  let l ← ledger
  setLedger l.drain.2
  return l.drain.1

/-- Changes the limit of the ledger, after both checks. -/
def changeLimit (limit : UInt64) : InPlace Unit := do
  let l ← ledger
  if h : limit = 0 then throw .zeroLimit
  else if limit.toNat ≤ l.size then throw (.limitNotAbove limit.toNat l.size)
  else setLedger { l with limit, limit_ne_zero := h }

end Changes

section Operations

def report (severity : Severity) (concern : Concern) : InPlace (Option Failure) := do
  ensureActive .report
  let d : Diagnostic := ⟨concern, severity⟩
  match ← record d with
  | .buffer =>
    emit (.buffered severity d.kind (← ledger).size)
    return none
  | .bufferThenEscalate =>
    let limit := (← ledger).limit.toNat
    let diagnostics ← drain
    setPhase .escalated
    emit (.limitReached severity d.kind limit diagnostics.length (← ledger).filename)
    return some ⟨(← ledger).filename, diagnostics, .limitExceeded limit⟩
  | .raiseImmediately => throw .panicRecorded

def raise (concern : Concern) : InPlace (Option Failure) := do
  ensureActive .raise
  let d : Diagnostic := ⟨concern, .panic⟩
  let discarded ← drain
  setPhase .raised
  emit (.panicRaised d.kind discarded.length (← ledger).filename)
  return some ⟨(← ledger).filename, [d], .panic⟩

def expressConcerns : InPlace (Option Failure) := do
  ensureActive .conclude
  setPhase .concluded
  if (← ledger).isEmpty then
    emit (.concludedCleanly (← ledger).filename)
    return none
  else
    let diagnostics ← drain
    emit (.concludedWithConcerns diagnostics.length (← ledger).filename)
    return some ⟨(← ledger).filename, diagnostics, .concerns⟩

def setFilename (filename : Text) : InPlace (Option Failure) := do
  ensureActive .setFilename
  setLedger ((← ledger).setFilename filename)
  emit (.filenameSet (← ledger).filename)
  return none

def setLimit (limit : UInt64) : InPlace (Option Failure) := do
  ensureActive .setLimit
  changeLimit limit
  emit (.limitSet limit.toNat)
  return none

/-- Carries out one call. -/
def perform : Call → InPlace Reply
  | .worry concern => .ofFailure? <$> report .worry concern
  | .regret concern => .ofFailure? <$> report .regret concern
  | .raise concern => .ofFailure? <$> raise concern
  | .expressConcerns => .ofFailure? <$> expressConcerns
  | .setFilename filename => .ofFailure? <$> setFilename filename
  | .setLimit limit => .ofFailure? <$> setLimit limit
  | .concerns => return .listed (← ledger).toList

end Operations

end InPlace

namespace Live

/-- Carries out one call: the reply or the misuse, with what the session and the log are then. -/
def attempt (live : Live) (call : Call) : EStateM.Result Misuse Live Reply :=
  (InPlace.perform call).run live

/-- The session and the log after one call. -/
def next (live : Live) (call : Call) : Live :=
  match live.attempt call with
  | .ok _ live' => live'
  | .error _ live' => live'

/-- The session and the log after the calls, refused ones included. -/
def after (live : Live) (calls : List Call) : Live := calls.foldl next live

/-- What an operation carried out in one piece leaves behind. -/
def settle (live : Live) : Except Misuse Outcome → EStateM.Result Misuse Live (Option Failure)
  | .ok outcome => .ok outcome.failure ⟨outcome.session, live.log ++ [outcome.event]⟩
  | .error misuse => .error misuse live

/-- What an answer leaves behind. -/
def settleAnswer (live : Live) (answer : Answer) : EStateM.Result Misuse Live Reply :=
  match answer.reply with
  | .ok reply => .ok reply ⟨answer.session, live.log ++ answer.event?.toList⟩
  | .error misuse => .error misuse ⟨answer.session, live.log ++ answer.event?.toList⟩

end Live

namespace InPlace
variable {α β : Type} {live : Live}

section Runs

theorem run_bind (work : InPlace α) (next : α → InPlace β) (live : Live) :
    (work >>= next).run live =
      match work.run live with
      | .ok a live' => (next a).run live'
      | .error misuse live' => .error misuse live' := by
  change EStateM.bind work next live = _
  rw [EStateM.bind, EStateM.run]
  cases work live <;> rfl

theorem run_bind_of_ok {work : InPlace α} {next : α → InPlace β} {a : α} {live' : Live}
    (h : work.run live = .ok a live') : (work >>= next).run live = (next a).run live' := by
  rw [run_bind, h]

theorem run_bind_of_error {work : InPlace α} {next : α → InPlace β} {misuse : Misuse}
    {live' : Live} (h : work.run live = .error misuse live') :
    (work >>= next).run live = .error misuse live' := by
  rw [run_bind, h]

theorem run_ledger (live : Live) : ledger.run live = .ok live.session.ledger live := rfl

theorem run_setPhase (phase : Phase) (live : Live) :
    (setPhase phase).run live = .ok () { live with session := { live.session with phase } } :=
  rfl

theorem run_ensureActive_of_active (hphase : live.session.phase = .active)
    (operation : Operation) : (ensureActive operation).run live = .ok () live :=
  congrFun (if_neg (not_not_intro hphase)) live

theorem run_ensureActive_of_ne (hphase : live.session.phase ≠ .active) (operation : Operation) :
    (ensureActive operation).run live =
      .error (.notActive operation live.session.ledger.filename live.session.phase) live :=
  congrFun (if_pos hphase) live

/-- A session hands over worries and regrets only, so it does not matter to it whether a build
asserts that. -/
theorem run_record_eq_store {d : Diagnostic} (hseverity : d.severity ≠ .panic) (live : Live) :
    (record d).run live = (store d).run live := by
  have hbufferable : ¬d.severity.isBufferable = false := by
    rwa [Severity.isBufferable_eq_false_iff]
  exact congrFun (if_neg hbufferable) live

theorem run_store {d : Diagnostic} (hseverity : d.severity ≠ .panic) :
    (store d).run live =
      .ok (if live.session.ledger.limit.toNat ≤ live.session.ledger.size + 1
          then .bufferThenEscalate else .buffer)
        { live with session := live.session.keep d } := by
  have hstored : ¬Action.classify live.session.ledger.size live.session.ledger.limit d.severity =
      .raiseImmediately := by
    rwa [Action.classify_eq_raiseImmediately_iff]
  rw [← Action.classify_eq hseverity]
  exact congrFun (if_pos hstored) live

theorem run_record {d : Diagnostic} (hseverity : d.severity ≠ .panic) :
    (record d).run live =
      .ok (if live.session.ledger.limit.toNat ≤ live.session.ledger.size + 1
          then .bufferThenEscalate else .buffer)
        { live with session := live.session.keep d } :=
  (run_record_eq_store hseverity live).trans (run_store hseverity)

theorem run_changeLimit (limit : UInt64) :
    (changeLimit limit).run live =
      match live.session.ledger.setLimit limit with
      | .ok ledger => .ok () { live with session := { live.session with ledger } }
      | .error misuse => .error misuse live := by
  rw [changeLimit, Ledger.setLimit]
  by_cases hzero : limit = 0
  · rw [dif_pos hzero]
    exact congrFun (dif_pos hzero) live
  · rw [dif_neg hzero]
    by_cases hle : limit.toNat ≤ live.session.ledger.size
    · rw [if_pos hle]
      exact (congrFun (dif_neg hzero) live).trans (congrFun (if_pos hle) live)
    · rw [if_neg hle]
      exact (congrFun (dif_neg hzero) live).trans (congrFun (if_neg hle) live)

end Runs

section OnePiece

/-- Every operation begins by making sure that the session is active, so its changes matter on an
active session only. -/
theorem run_guarded {operation : Operation} {rest : Unit → InPlace (Option Failure)}
    {whole : Except Misuse Outcome}
    (hactive : live.session.phase = .active → (rest ()).run live = live.settle whole)
    (hne : live.session.phase ≠ .active → whole =
      .error (.notActive operation live.session.ledger.filename live.session.phase)) :
    (ensureActive operation >>= rest).run live = live.settle whole := by
  by_cases hphase : live.session.phase = .active
  · rw [run_bind_of_ok (run_ensureActive_of_active hphase operation), hactive hphase]
  · rw [run_bind_of_error (run_ensureActive_of_ne hphase operation), hne hphase]
    rfl

theorem run_report {severity : Severity} (hseverity : severity ≠ .panic) (concern : Concern) :
    (report severity concern).run live =
      live.settle (live.session.report severity concern) := by
  apply run_guarded
  · intro hphase
    let d : Diagnostic := ⟨concern, severity⟩
    have hsize : live.session.ledger.size + 1 = (live.session.keep d).ledger.size :=
      (live.session.ledger.size_add d).symm
    have hall : live.session.concerns ++ [d] = (live.session.keep d).ledger.toList :=
      (live.session.ledger.toList_add d).symm
    rw [report_eq hphase hseverity, reportOutcome, run_bind_of_ok (run_record (d := d) hseverity)]
    by_cases hfull : live.session.ledger.limit.toNat ≤ live.session.ledger.size + 1
    · rw [if_pos hfull, if_pos hfull, hsize, hall]
      rfl
    · rw [if_neg hfull, if_neg hfull, hsize]
      rfl
  · intro hphase
    rw [Session.report, Session.ensureActive_of_ne hphase]
    rfl

theorem run_raise (concern : Concern) :
    (raise concern).run live = live.settle (live.session.raise concern) := by
  apply run_guarded
  · intro hphase
    rw [raise_eq hphase]
    rfl
  · intro hphase
    rw [Session.raise, Session.ensureActive_of_ne hphase]
    rfl

/-- A clean end does not touch the ledger, which holds nothing anyway. -/
theorem run_expressConcerns :
    expressConcerns.run live = live.settle live.session.expressConcerns := by
  apply run_guarded
  · intro hphase
    rw [expressConcerns_eq hphase, concludeOutcome, run_bind_of_ok (run_setPhase _ _),
      run_bind_of_ok (run_ledger _)]
    change EStateM.run (if live.session.ledger.isEmpty = true then _ else _) _ = _
    by_cases hnone : live.session.concerns = []
    · rw [if_pos hnone, if_pos (isEmpty_iff.mpr hnone), leave_of_concerns_eq_nil hnone]
      rfl
    · rw [if_neg hnone, if_neg (mt isEmpty_iff.mp hnone)]
      rfl
  · intro hphase
    rw [Session.expressConcerns, Session.ensureActive_of_ne hphase]
    rfl

theorem run_setFilename (filename : Text) :
    (setFilename filename).run live = live.settle (live.session.setFilename filename) := by
  apply run_guarded
  · intro hphase
    rw [setFilename_eq hphase]
    rfl
  · intro hphase
    rw [Session.setFilename, Session.ensureActive_of_ne hphase]
    rfl

theorem run_setLimit (limit : UInt64) :
    (setLimit limit).run live = live.settle (live.session.setLimit limit) := by
  apply run_guarded
  · intro hphase
    rw [setLimit_eq hphase, run_bind, run_changeLimit]
    cases live.session.ledger.setLimit limit <;> rfl
  · intro hphase
    rw [Session.setLimit, Session.ensureActive_of_ne hphase]
    rfl

theorem run_reply {work : InPlace (Option Failure)} {whole : Except Misuse Outcome}
    (h : work.run live = live.settle whole) :
    (Reply.ofFailure? <$> work).run live =
      live.settleAnswer (.ofOutcome live.session whole) := by
  have hwork : work live = live.settle whole := h
  change EStateM.map Reply.ofFailure? work live = _
  rw [EStateM.map, hwork]
  cases whole with
  | error misuse =>
      rw [Live.settleAnswer, Answer.ofOutcome, Option.toList_none, List.append_nil]
      rfl
  | ok outcome =>
      obtain ⟨session, event, failure⟩ := outcome
      cases failure <;> rfl

end OnePiece

end InPlace

namespace Live
open InPlace

/-- Change by change, a call comes to the same as in one piece. -/
theorem attempt_eq (live : Live) (call : Call) :
    live.attempt call = live.settleAnswer (live.session.attempt call) := by
  cases call with
  | worry concern => exact run_reply (run_report (by decide) concern)
  | regret concern => exact run_reply (run_report (by decide) concern)
  | raise concern => exact run_reply (run_raise concern)
  | expressConcerns => exact run_reply run_expressConcerns
  | setFilename filename => exact run_reply (run_setFilename filename)
  | setLimit limit => exact run_reply (run_setLimit limit)
  | concerns =>
      rw [settleAnswer, Session.attempt, Option.toList_none, List.append_nil]
      rfl

theorem next_eq (live : Live) (call : Call) :
    live.next call =
      ⟨(live.session.attempt call).session,
        live.log ++ (live.session.attempt call).event?.toList⟩ := by
  rw [next, attempt_eq, settleAnswer]
  cases (live.session.attempt call).reply <;> rfl

/-- So does a whole run. -/
theorem after_eq (live : Live) (calls : List Call) :
    live.after calls =
      ⟨live.session.after calls,
        live.log ++ (live.session.run calls).filterMap Answer.event?⟩ := by
  induction calls generalizing live with
  | nil => simp [after, Session.after, run]
  | cons call calls ih =>
      change (live.next call).after calls = _
      rw [ih, next_eq, run, List.filterMap_cons]
      cases (live.session.attempt call).event? <;> simp [Session.after]

end Live

end ParseReport.Session
