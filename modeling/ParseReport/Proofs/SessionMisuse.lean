import ParseReport.Proofs.SessionHistory
import ParseReport.Proofs.SessionInPlace

/-!
# Misuse of a session

Which calls are refused, and for which fault, depends only on the phase of the session, on the limit
that is asked for and on how many diagnostics are held. A refusal changes nothing, even where the
session is changed in place, and a session that is no longer active refuses all that would.
-/

namespace ParseReport.Session

section Misuse
variable {s : Session} {call : Call}

/-- The misuse that a call is, if it is one. That the session is no longer active goes before any
fault of a limit, and a limit of zero before one that does not exceed what is held. -/
def misuse? (s : Session) (call : Call) : Option Misuse :=
  if s.phase = .active then
    match call with
    | .setLimit limit =>
      if limit = 0 then some .zeroLimit
      else if limit.toNat ≤ s.concerns.length then
        some (.limitNotAbove limit.toNat s.concerns.length)
      else none
    | _ => none
  else
    call.operation?.map fun operation => .notActive operation s.ledger.filename s.phase

theorem misuse?_of_ne (hphase : s.phase ≠ .active) (call : Call) :
    s.misuse? call =
      call.operation?.map fun operation => .notActive operation s.ledger.filename s.phase := by
  rw [misuse?.eq_def, if_neg hphase]

theorem misuse?_setLimit (hphase : s.phase = .active) (limit : UInt64) :
    s.misuse? (.setLimit limit) =
      if limit = 0 then some .zeroLimit
      else if limit.toNat ≤ s.concerns.length then
        some (.limitNotAbove limit.toNat s.concerns.length)
      else none :=
  if_pos hphase

theorem misuse?_ne_none_iff :
    s.misuse? call ≠ none ↔ s.phase ≠ .active ∧ call ≠ .concerns ∨
      ∃ limit, call = .setLimit limit ∧ (limit = 0 ∨ limit.toNat ≤ s.concerns.length) := by
  by_cases hphase : s.phase = .active
  · cases call with
    | setLimit limit =>
        rw [misuse?_setLimit hphase]
        by_cases hzero : limit = 0 <;> simp [hphase, hzero]
    | _ => simp [misuse?, hphase]
  · rw [misuse?_of_ne hphase]
    cases call <;> simp [hphase, Call.operation?]

theorem exists_reply_of_outcome {outcome : Outcome}
    (h : s.attempt call = .ofOutcome s (.ok outcome)) :
    ∃ reply, (s.attempt call).reply = .ok reply := by
  rw [h]
  exact ⟨outcome.reply, rfl⟩

/-- A misuse is refused with the session left as it is, and every other call is accepted. -/
theorem attempt_cases (s : Session) (call : Call) :
    (∃ misuse, s.misuse? call = some misuse ∧ s.attempt call = ⟨.error misuse, s, none⟩) ∨
      s.misuse? call = none ∧ ∃ reply, (s.attempt call).reply = .ok reply := by
  by_cases hphase : s.phase = .active
  · cases call with
    | worry concern =>
        exact .inr ⟨if_pos hphase, exists_reply_of_outcome (attempt_of_report? hphase rfl)⟩
    | regret concern =>
        exact .inr ⟨if_pos hphase, exists_reply_of_outcome (attempt_of_report? hphase rfl)⟩
    | raise concern =>
        exact .inr ⟨if_pos hphase,
          exists_reply_of_outcome (congrArg (Answer.ofOutcome s) (raise_eq hphase concern))⟩
    | expressConcerns =>
        exact .inr ⟨if_pos hphase,
          exists_reply_of_outcome (congrArg (Answer.ofOutcome s) (expressConcerns_eq hphase))⟩
    | setFilename filename =>
        exact .inr ⟨if_pos hphase,
          exists_reply_of_outcome (congrArg (Answer.ofOutcome s) (setFilename_eq hphase filename))⟩
    | setLimit limit =>
        rw [attempt, setLimit_eq hphase, Ledger.setLimit, misuse?_setLimit hphase]
        by_cases hzero : limit = 0
        · rw [dif_pos hzero, if_pos hzero]
          exact .inl ⟨_, rfl, rfl⟩
        · by_cases hle : limit.toNat ≤ s.ledger.size
          · rw [dif_neg hzero, if_neg hzero, if_pos hle]
            exact .inl ⟨_, if_pos hle, rfl⟩
          · rw [dif_neg hzero, if_neg hzero, if_neg hle]
            exact .inr ⟨if_neg hle, _, rfl⟩
    | concerns => exact .inr ⟨if_pos hphase, _, rfl⟩
  · rw [attempt_of_ne hphase, misuse?_of_ne hphase]
    cases call.operation? with
    | some operation => exact .inl ⟨_, rfl, rfl⟩
    | none => exact .inr ⟨rfl, _, rfl⟩

theorem Live.attempt_cases (live : Live) (call : Call) :
    (∃ misuse, live.session.misuse? call = some misuse ∧
        live.attempt call = .error misuse live) ∨
      live.session.misuse? call = none ∧ ∃ reply live', live.attempt call = .ok reply live' := by
  rw [attempt_eq, settleAnswer]
  rcases live.session.attempt_cases call with ⟨misuse, hmisuse, hattempt⟩ | ⟨hnone, reply, hreply⟩
  · rw [hattempt, Option.toList_none, List.append_nil]
    exact .inl ⟨misuse, hmisuse, rfl⟩
  · rw [hreply]
    exact .inr ⟨hnone, reply, _, rfl⟩

theorem Live.error_attempt_iff (live : Live) (call : Call) :
    (∃ misuse live', live.attempt call = .error misuse live') ↔
      live.session.misuse? call ≠ none := by
  rcases live.attempt_cases call with ⟨misuse, hmisuse, herror⟩ | ⟨hnone, reply, live', hok⟩
  · rw [herror, hmisuse]
    exact ⟨fun _ => Option.some_ne_none misuse, fun _ => ⟨_, _, rfl⟩⟩
  · rw [hok, hnone]
    constructor
    · rintro ⟨misuse, _, herror⟩
      cases herror
    · exact fun h => absurd rfl h

/-- What an operation does before it refuses a call is nothing. -/
theorem Live.eq_of_error_attempt {live live' : Live} {misuse : Misuse}
    (h : live.attempt call = .error misuse live') :
    live' = live ∧ live.session.misuse? call = some misuse := by
  rcases live.attempt_cases call with ⟨misuse', hmisuse, herror⟩ | ⟨-, reply, _, hok⟩
  · cases herror.symm.trans h
    exact ⟨rfl, hmisuse⟩
  · cases hok.symm.trans h

end Misuse

section Left
variable {live : Live}

/-- Nothing changes a session that is no longer active. -/
theorem Live.after_of_ne (hphase : live.session.phase ≠ .active) (calls : List Call) :
    live.after calls = live := by
  induction calls with
  | nil => rfl
  | cons call calls ih =>
      have hnext : live.next call = live := by
        rw [next_eq, attempt_of_ne hphase]
        cases call.operation? <;> simp
      rw [after, List.foldl_cons, hnext]
      exact ih

theorem Live.attempt_of_ne (hphase : live.session.phase ≠ .active) (call : Call) :
    live.attempt call =
      match call.operation? with
      | some operation =>
        .error (.notActive operation live.session.ledger.filename live.session.phase) live
      | none => .ok (.listed live.session.concerns) live := by
  rw [attempt_eq, settleAnswer, Session.attempt_of_ne hphase]
  cases call.operation? <;> simp

end Left

/-- After any calls, refused ones included, a call is refused exactly if the session is no longer
active and the call is not one that only looks, or if it asks for a limit that is zero or does not
exceed the number of diagnostics held. A refusal names the first fault and leaves the session and
the log as they were. A session that is no longer active holds nothing, stays as it is through any
further calls, and has no other answer to them than refusals and empty lists. -/
theorem misuse_after_any_calls (config : Config) (hlimit : config.limit ≠ 0) (calls : List Call) :
    ∃ s, ofConfig config = .ok s ∧
      let live := Live.after ⟨s, []⟩ calls
      (∀ call, (∃ misuse live', live.attempt call = .error misuse live') ↔
        live.session.phase ≠ .active ∧ call ≠ .concerns ∨
          ∃ limit, call = .setLimit limit ∧
            (limit = 0 ∨ limit.toNat ≤ live.session.concerns.length)) ∧
      (∀ call misuse live', live.attempt call = .error misuse live' →
        live' = live ∧ live.session.misuse? call = some misuse) ∧
      (live.session.phase ≠ .active → ∀ later, live.after later = live ∧
        live.session.concerns = [] ∧ ∀ call, (live.after later).attempt call =
          match call.operation? with
          | some operation =>
            .error (.notActive operation live.session.ledger.filename live.session.phase) live
          | none => .ok (.listed []) live) := by
  obtain ⟨s, hs, -, hstart⟩ := agrees_ofConfig hlimit
  refine ⟨s, hs, ?_⟩
  intro live
  have hend : Agrees config (s.transcript calls) live.session := by
    have hsession : live.session = s.after calls :=
      congrArg Live.session (Live.after_eq ⟨s, []⟩ calls)
    rw [hsession]
    simpa using hstart.run calls
  refine ⟨?_, ?_, ?_⟩
  · intro call
    rw [← misuse?_ne_none_iff]
    exact live.error_attempt_iff call
  · intro call misuse live' herror
    exact Live.eq_of_error_attempt herror
  · intro hphase later
    have hnothing := (hend.inactive hphase).1
    refine ⟨Live.after_of_ne hphase later, hnothing, ?_⟩
    intro call
    rw [Live.after_of_ne hphase, Live.attempt_of_ne hphase, hnothing]

/-- With one diagnostic held a limit of zero is refused as such. After the second has failed the
session, the same call is refused because of that, and again when it is repeated. -/
theorem misuse_before_and_after_failure :
    (2 : UInt64) ≠ 0 ∧ ∃ s, ofConfig ⟨['f'], 2⟩ = .ok s ∧
      let about (c : Char) : Concern := ⟨.adHoc [c], none, none⟩
      let held := Live.after ⟨s, []⟩ [.worry (about 'a'), .setLimit 1]
      let failed := Live.after ⟨s, []⟩ [.worry (about 'a'), .setLimit 1, .regret (about 'b')]
      held.session.concerns = [⟨about 'a', .worry⟩] ∧
        held.attempt (.setLimit 0) = .error .zeroLimit held ∧
        (failed.after [.setLimit 0]).attempt (.setLimit 0) =
          .error (.notActive .setLimit ['f'] .escalated) failed := by
  refine ⟨by decide, ?_⟩
  obtain ⟨s, hs, hrefused, hkeeps, -⟩ := misuse_after_any_calls ⟨['f'], 2⟩ (by decide)
    [.worry ⟨.adHoc ['a'], none, none⟩, .setLimit 1]
  obtain ⟨s', hs', -, -, hleft⟩ := misuse_after_any_calls ⟨['f'], 2⟩ (by decide)
    [.worry ⟨.adHoc ['a'], none, none⟩, .setLimit 1, .regret ⟨.adHoc ['b'], none, none⟩]
  cases hs
  cases hs'
  obtain ⟨misuse, live', herror⟩ := (hrefused (.setLimit 0)).mpr (.inr ⟨0, rfl, .inl rfl⟩)
  obtain ⟨rfl, hmisuse⟩ := hkeeps _ _ _ herror
  obtain rfl : Misuse.zeroLimit = misuse := Option.some.inj hmisuse
  exact ⟨_, rfl, rfl, herror, (hleft (by decide) [.setLimit 0]).2.2 (.setLimit 0)⟩

end ParseReport.Session
