import ParseReport.Proofs.LedgerFullness

/-!
# Ledgers in a release build

A release build does not assert that no panic is recorded. A panic is then dropped, and the answer
is that it has to be raised. No other call is answered in another way, and every call leaves the
same ledger in both builds, so what holds of the history of a ledger and of when it is full holds
of both.
-/

namespace ParseReport.Ledger

/-- Stores a diagnostic, unless it is a panic. The action is worked out before it is stored. -/
def store (l : Ledger) (d : Diagnostic) : Action × Ledger :=
  let action := Action.classify l.size l.limit d.severity
  (action, if action = .raiseImmediately then l else l.add d)

/-- The answer to a call without the assertion, and the ledger after it. -/
def attemptUnasserted (l : Ledger) : Call → Except Misuse Reply × Ledger
  | .record d => (.ok (.recorded (l.store d).1), (l.store d).2)
  | call => l.attempt call

/-- The exchange that a call makes without the assertion. -/
def exchangeUnasserted (l : Ledger) (call : Call) : Exchange :=
  ⟨call, (l.attemptUnasserted call).1⟩

/-- The ledger after the calls, refused ones included. -/
def afterUnasserted (l : Ledger) (calls : List Call) : Ledger :=
  calls.foldl (fun l call => (l.attemptUnasserted call).2) l

/-- The exchanges of a run without the assertion. -/
def transcriptUnasserted : Ledger → List Call → List Exchange
  | _, [] => []
  | l, call :: calls =>
    l.exchangeUnasserted call :: (l.attemptUnasserted call).2.transcriptUnasserted calls

/-- What becomes of an exchange without the assertion, which is the only reason to refuse a
record. -/
def Exchange.unasserted : Exchange → Exchange
  | ⟨.record d, .error _⟩ => ⟨.record d, .ok (.recorded .raiseImmediately)⟩
  | x => x

section Steps
variable {l : Ledger} {d : Diagnostic}

theorem store_of_panic (hseverity : d.severity = .panic) : l.store d = (.raiseImmediately, l) := by
  rw [store, Action.classify_eq_raiseImmediately_iff.mpr hseverity, if_pos rfl]

theorem store_eq (hseverity : d.severity ≠ .panic) :
    l.store d =
      (if l.limit.toNat ≤ l.size + 1 then .bufferThenEscalate else .buffer, l.add d) := by
  have hstored : ¬Action.classify l.size l.limit d.severity = .raiseImmediately := by
    rwa [Action.classify_eq_raiseImmediately_iff]
  rw [← Action.classify_eq hseverity]
  exact Prod.ext rfl (if_neg hstored)

/-- But for a panic, the assertion makes no difference. -/
theorem record_eq_store (hseverity : d.severity ≠ .panic) : l.record d = .ok (l.store d) := by
  rw [l.record_eq hseverity, store_eq hseverity]

theorem attemptUnasserted_record_of_panic (hseverity : d.severity = .panic) :
    l.attemptUnasserted (.record d) = (.ok (.recorded .raiseImmediately), l) := by
  rw [attemptUnasserted, store_of_panic hseverity]

theorem attemptUnasserted_record (hseverity : d.severity ≠ .panic) :
    l.attemptUnasserted (.record d) = l.attempt (.record d) := by
  rw [attemptUnasserted, attempt, perform, record_eq_store hseverity]
  rfl

theorem attemptUnasserted_snd (l : Ledger) (call : Call) :
    (l.attemptUnasserted call).2 = (l.attempt call).2 := by
  cases call with
  | record d =>
      by_cases hseverity : d.severity = .panic
      · rw [attemptUnasserted_record_of_panic hseverity, attempt_record_of_panic hseverity]
      · rw [attemptUnasserted_record hseverity]
  | _ => rfl

theorem exchangeUnasserted_eq (l : Ledger) (call : Call) :
    l.exchangeUnasserted call = (l.exchange call).unasserted := by
  cases call with
  | record d =>
      by_cases hseverity : d.severity = .panic
      · rw [exchangeUnasserted, exchange, attemptUnasserted_record_of_panic hseverity,
          attempt_record_of_panic hseverity]
        rfl
      · rw [exchangeUnasserted, exchange, attemptUnasserted_record hseverity,
          attempt_record hseverity]
        rfl
  | _ => rfl

/-- In place a diagnostic is stored in the same way. -/
theorem run_store_eq (d : Diagnostic) (live : Session.Live) :
    (Session.InPlace.store d).run live =
      .ok (live.session.ledger.store d).1
        { live with session := { live.session with ledger := (live.session.ledger.store d).2 } } := by
  by_cases hseverity : d.severity = .panic
  · have hraised : Action.classify live.session.ledger.size live.session.ledger.limit d.severity =
        .raiseImmediately :=
      Action.classify_eq_raiseImmediately_iff.mpr hseverity
    rw [store_of_panic hseverity, ← hraised]
    exact congrFun (if_neg (not_not_intro hraised)) live
  · rw [Session.InPlace.run_store hseverity, store_eq hseverity]
    rfl

end Steps

section Runs

theorem afterUnasserted_eq (l : Ledger) (calls : List Call) :
    l.afterUnasserted calls = l.after calls := by
  induction calls generalizing l with
  | nil => rfl
  | cons call calls ih =>
      change (l.attemptUnasserted call).2.afterUnasserted calls = _
      rw [attemptUnasserted_snd, ih]
      rfl

theorem transcriptUnasserted_eq (l : Ledger) (calls : List Call) :
    l.transcriptUnasserted calls = (l.transcript calls).map Exchange.unasserted := by
  induction calls generalizing l with
  | nil => rfl
  | cons call calls ih =>
      rw [transcriptUnasserted, transcript, List.map_cons, exchangeUnasserted_eq,
        attemptUnasserted_snd, ih]

end Runs

section Exchanges

theorem drained_unasserted (x : Exchange) : x.unasserted.drained = x.drained := by
  unfold Exchange.unasserted
  split <;> rfl

theorem escalates_unasserted_iff (x : Exchange) : x.unasserted.Escalates ↔ x.Escalates := by
  unfold Exchange.unasserted
  split
  · simp [Exchange.Escalates]
  · rfl

theorem makesRoom_unasserted_iff (x : Exchange) : x.unasserted.MakesRoom ↔ x.MakesRoom := by
  unfold Exchange.unasserted
  split
  · simp [Exchange.MakesRoom]
  · rfl

theorem drained_map_unasserted (done : List Exchange) :
    drained (done.map Exchange.unasserted) = drained done := by
  rw [drained, drained, List.flatMap_map]
  exact congrArg (done.flatMap ·) (funext drained_unasserted)

theorem filled_map_unasserted_iff (done : List Exchange) :
    Filled (done.map Exchange.unasserted) ↔ Filled done := by
  induction done using List.reverseRecOn with
  | nil => rfl
  | append_singleton done x ih =>
      rw [List.map_append, List.map_singleton, filled_concat, filled_concat, ih,
        escalates_unasserted_iff, makesRoom_unasserted_iff]

end Exchanges

/-- Without the assertion the ledger after any calls is the same, and the exchanges differ for the
records of a panic alone. So what the drains gave out and then what is held is what was handed in,
no panic is among it, and the ledger is full exactly if some record said so and no room was made
since. A panic is answered with the action to raise it, and only a change of the limit is refused. -/
theorem unasserted_keeps_history (filename : Text) {limit : UInt64} (hlimit : limit ≠ 0)
    (calls : List Call) :
    ∃ l, create filename limit = .ok l ∧
      let held := l.afterUnasserted calls
      let done := l.transcriptUnasserted calls
      held = l.after calls ∧ done = (l.transcript calls).map Exchange.unasserted ∧
      drained done ++ held.toList = recorded calls ∧
      (∀ d ∈ held.toList, d.severity ≠ .panic) ∧
      (held.isFull = true ↔ Filled done) ∧
      (∀ d, d.severity = .panic →
        held.attemptUnasserted (.record d) = (.ok (.recorded .raiseImmediately), held)) ∧
      ∀ call misuse, (held.attemptUnasserted call).1 = .error misuse →
        (∃ limit, call = .setLimit limit) ∧ (held.attemptUnasserted call).2 = held := by
  have hstart := create_eq filename hlimit
  refine ⟨_, hstart, ?_⟩
  intro held done
  have hheld : held = _ := afterUnasserted_eq _ calls
  have hdone : done = _ := transcriptUnasserted_eq _ calls
  have hhistory : drained done ++ held.toList = recorded calls := by
    rw [hdone, hheld, drained_map_unasserted]
    exact drained_append_toList _ calls
  refine ⟨hheld, hdone, hhistory, ?_, ?_, fun d => attemptUnasserted_record_of_panic, ?_⟩
  · intro d hd
    have hrecorded : d ∈ recorded calls := by
      rw [← hhistory]
      exact List.mem_append_right _ hd
    exact severity_ne_of_mem_recorded hrecorded
  · rw [hdone, hheld, filled_map_unasserted_iff]
    exact isFull_after_iff (isFull_ne_true_of_toList_eq_nil (toList_create hstart)) calls
  · intro call misuse hrefused
    cases call with
    | setLimit limit => exact ⟨⟨limit, rfl⟩, eq_of_refused hrefused⟩
    | _ => cases hrefused

/-- A panic after a worry is not kept. -/
example :
    let about (c : Char) (severity : Severity) : Diagnostic := ⟨⟨.adHoc [c], none, none⟩, severity⟩
    let l := (default : Ledger).afterUnasserted [.record (about 'k' .worry)]
    l.attemptUnasserted (.record (about 'd' .panic)) = (.ok (.recorded .raiseImmediately), l) ∧
      l.toList = [about 'k' .worry] := by
  exact ⟨rfl, rfl⟩

end ParseReport.Ledger
