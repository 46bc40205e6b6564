import Mathlib.Data.List.Induction
import ParseReport.Proofs.LedgerHistory

/-!
# When a ledger is full

A record says before it stores its diagnostic whether to escalate, and that is exactly whether the
ledger is full with it. Apart from such a record only draining the ledger or changing its limit has
a part in whether it is full, and both make room. So after any calls the ledger is full exactly if
some record said so and no room was made since.
-/

namespace ParseReport.Ledger

namespace Exchange

/-- The exchange made room: all was taken out, or the limit was changed. -/
def MakesRoom (x : Exchange) : Prop :=
  x.call = .drain ∨ ∃ limit reply, x.call = .setLimit limit ∧ x.reply = .ok reply

/-- The exchange stored a diagnostic and said to escalate. -/
def Escalates (x : Exchange) : Prop :=
  ∃ d, x.call = .record d ∧ x.reply = .ok (.recorded .bufferThenEscalate)

end Exchange

/-- Some exchange said to escalate, and no room was made after it. -/
def Filled (done : List Exchange) : Prop :=
  ∃ before x later, done = before ++ x :: later ∧ x.Escalates ∧ ∀ y ∈ later, ¬y.MakesRoom

section Exchanges
variable {done later : List Exchange} {x : Exchange}

theorem not_filled_nil : ¬Filled [] := by
  rintro ⟨before, x, later, hsplit, -⟩
  exact List.append_ne_nil_of_right_ne_nil before (List.cons_ne_nil x later) hsplit.symm

theorem Filled.append (h : Filled done) (hlater : ∀ y ∈ later, ¬y.MakesRoom) :
    Filled (done ++ later) := by
  obtain ⟨before, x, between, rfl, hx, hbetween⟩ := h
  refine ⟨before, x, between ++ later, List.append_assoc _ _ _, hx, ?_⟩
  exact List.forall_mem_append.mpr ⟨hbetween, hlater⟩

theorem filled_concat :
    Filled (done ++ [x]) ↔ x.Escalates ∨ Filled done ∧ ¬x.MakesRoom := by
  constructor
  · rintro ⟨before, y, later, hsplit, hy, hlater⟩
    rcases List.eq_nil_or_concat later with rfl | ⟨between, z, rfl⟩
    · obtain ⟨-, hxy⟩ := List.append_inj' hsplit rfl
      obtain rfl := List.singleton_inj.mp hxy
      exact .inl hy
    · rw [List.concat_eq_append] at hsplit hlater
      have hsplit' : done ++ [x] = (before ++ y :: between) ++ [z] := by
        rw [hsplit, List.append_assoc]
        rfl
      obtain ⟨hdone, hxz⟩ := List.append_inj' hsplit' rfl
      obtain rfl := List.singleton_inj.mp hxz
      obtain ⟨hbetween, hlast⟩ := List.forall_mem_append.mp hlater
      exact .inr ⟨⟨before, y, between, hdone, hy, hbetween⟩, hlast x (List.mem_singleton_self x)⟩
  · rintro (hx | ⟨hdone, hx⟩)
    · exact ⟨done, x, [], rfl, hx, List.forall_mem_nil _⟩
    · exact hdone.append (List.forall_mem_singleton.mpr hx)

end Exchanges

section Steps
variable {l : Ledger} {call : Call}

theorem isFull_iff : l.isFull = true ↔ l.limit.toNat ≤ l.size := by
  rw [isFull, decide_eq_true_eq]

theorem limit_add (l : Ledger) (d : Diagnostic) : (l.add d).limit = l.limit := rfl

theorem isFull_add_iff (d : Diagnostic) :
    (l.add d).isFull = true ↔ l.limit.toNat ≤ l.size + 1 := by
  rw [isFull_iff, size_add, limit_add]

/-- As no limit is zero, a ledger with nothing in it is not full. -/
theorem isFull_ne_true_of_toList_eq_nil (h : l.toList = []) : l.isFull ≠ true := by
  have hsize : l.size = 0 := congrArg List.length h
  have hpositive := (⟨l, .active⟩ : Session).limit_pos
  rw [ne_eq, isFull_iff, hsize]
  exact Nat.not_le_of_lt hpositive

theorem not_escalates_of_report? (l : Ledger) {call : Call} (h : call.report? = none) :
    ¬(l.exchange call).Escalates := by
  rintro ⟨d, hcall, hreply⟩
  obtain rfl : call = .record d := hcall
  have hseverity : d.severity = .panic := by simpa [Call.report?] using h
  rw [exchange, attempt_record_of_panic hseverity] at hreply
  cases hreply

/-- The ledger that a call leaves is full if the call has said to escalate, or if it was full before
and no room was made. -/
theorem isFull_attempt_iff (l : Ledger) (call : Call) :
    (l.attempt call).2.isFull = true ↔
      (l.exchange call).Escalates ∨ l.isFull = true ∧ ¬(l.exchange call).MakesRoom := by
  cases call with
  | record d =>
      have hroom : ¬(l.exchange (.record d)).MakesRoom := by
        rintro (⟨⟨⟩⟩ | ⟨limit, reply, ⟨⟩, -⟩)
      by_cases hseverity : d.severity = .panic
      · have hnoted : ¬(l.exchange (.record d)).Escalates :=
          l.not_escalates_of_report? (if_pos hseverity)
        simp [attempt_record_of_panic hseverity, hnoted, hroom]
      · have hnoted : (l.exchange (.record d)).Escalates ↔ l.limit.toNat ≤ l.size + 1 := by
          simp [Exchange.Escalates, exchange, attempt_record hseverity]
        rw [attempt_record hseverity, isFull_add_iff, hnoted, isFull_iff]
        constructor
        · exact .inl
        · rintro (hfull | ⟨hfull, -⟩)
          · exact hfull
          · exact Nat.le_succ_of_le hfull
  | drain =>
      have hnoted : ¬(l.exchange .drain).Escalates := l.not_escalates_of_report? rfl
      have hroom : (l.exchange .drain).MakesRoom := .inl rfl
      have hdrain : (l.attempt .drain).2 = l.drain.2 := rfl
      simp [hnoted, hroom, hdrain, isFull_ne_true_of_toList_eq_nil l.toList_drain]
  | list =>
      have hnoted : ¬(l.exchange .list).Escalates := l.not_escalates_of_report? rfl
      have hroom : ¬(l.exchange .list).MakesRoom := by
        rintro (⟨⟨⟩⟩ | ⟨limit, reply, ⟨⟩, -⟩)
      have hsame : (l.attempt .list).2 = l := rfl
      simp [hnoted, hroom, hsame]
  | setFilename filename =>
      have hnoted : ¬(l.exchange (.setFilename filename)).Escalates :=
        l.not_escalates_of_report? rfl
      have hroom : ¬(l.exchange (.setFilename filename)).MakesRoom := by
        rintro (⟨⟨⟩⟩ | ⟨limit, reply, ⟨⟩, -⟩)
      have hsame : (l.attempt (.setFilename filename)).2.isFull = l.isFull := rfl
      simp [hnoted, hroom, hsame]
  | setLimit limit =>
      have hnoted : ¬(l.exchange (.setLimit limit)).Escalates := l.not_escalates_of_report? rfl
      rcases l.attempt_setLimit_cases limit with ⟨misuse, hrefused⟩ | ⟨l', haccepted, hbelow, -⟩
      · have hroom : ¬(l.exchange (.setLimit limit)).MakesRoom := by
          rintro (⟨⟨⟩⟩ | ⟨limit', reply, -, hreply⟩)
          rw [exchange, hrefused] at hreply
          cases hreply
        simp [hrefused, hnoted, hroom]
      · have hroom : (l.exchange (.setLimit limit)).MakesRoom :=
          .inr ⟨limit, .done, rfl, by rw [exchange, haccepted]⟩
        simp [haccepted, hnoted, hroom, isFull_iff, hbelow]

end Steps

section Runs

theorem transcript_concat (l : Ledger) (calls : List Call) (call : Call) :
    l.transcript (calls ++ [call]) = l.transcript calls ++ [(l.after calls).exchange call] :=
  l.transcript_append calls [call]

/-- A ledger that was not full at the start is full exactly if it was filled since. -/
theorem isFull_after_iff {l : Ledger} (hstart : l.isFull ≠ true) (calls : List Call) :
    (l.after calls).isFull = true ↔ Filled (l.transcript calls) := by
  induction calls using List.reverseRecOn with
  | nil => exact iff_of_false hstart not_filled_nil
  | append_singleton calls call ih =>
      rw [after_append, transcript_concat, filled_concat, ← ih]
      exact isFull_attempt_iff _ call

/-- A full ledger stays full as long as no room is made. -/
theorem isFull_after_of_isFull {l : Ledger} (hfull : l.isFull = true) {calls : List Call}
    (hroom : ∀ x ∈ l.transcript calls, ¬x.MakesRoom) : (l.after calls).isFull = true := by
  induction calls generalizing l with
  | nil => exact hfull
  | cons call calls ih =>
      obtain ⟨hfirst, hlater⟩ := List.forall_mem_cons.mp hroom
      exact ih ((l.isFull_attempt_iff call).mpr (.inr ⟨hfull, hfirst⟩)) hlater

end Runs

section Answers
variable {l : Ledger}

/-- The answer to a record counts without a bound, and says whether the ledger is full with what was
recorded. -/
theorem exists_record {d : Diagnostic} (hseverity : d.severity ≠ .panic) :
    ∃ action next, l.record d = .ok (action, next) ∧
      (action = .bufferThenEscalate ↔ next.isFull = true) ∧
      (action = .buffer ↔ next.isFull ≠ true) ∧
      (action = .bufferThenEscalate ↔ l.limit.toNat ≤ l.toList.length + 1) := by
  refine ⟨_, _, l.record_eq hseverity, ?_⟩
  rw [ne_eq, isFull_add_iff, size_eq_length]
  by_cases hfull : l.limit.toNat ≤ l.toList.length + 1 <;> simp [hfull]

theorem isFull_ne_true_of_makesRoom {call : Call} (h : (l.exchange call).MakesRoom) :
    (l.attempt call).2.isFull ≠ true := by
  rw [ne_eq, isFull_attempt_iff]
  rintro (⟨d, hcall, -⟩ | ⟨-, hroom⟩)
  · rcases h with hdrain | ⟨limit, reply, hset, -⟩
    · cases hcall.symm.trans hdrain
    · cases hcall.symm.trans hset
  · exact hroom h

theorem escalates_of_isFull {call : Call} (hbefore : l.isFull ≠ true)
    (hafter : (l.attempt call).2.isFull = true) : (l.exchange call).Escalates :=
  ((l.isFull_attempt_iff call).mp hafter).resolve_right fun h => hbefore h.1

end Answers

/-- After any calls, also on a ledger that holds more than its limit: the answer to a record says
whether the ledger is full with what was recorded, by a count without a bound. A full ledger stays
full until room is made, which never leaves it full. It can become full only by a record that said
so, and it is full exactly if some record said so and no room was made since. -/
theorem action_agrees_with_fullness (filename : Text) {limit : UInt64} (hlimit : limit ≠ 0)
    (calls : List Call) :
    ∃ l, create filename limit = .ok l ∧
      let held := l.after calls
      (∀ d, d.severity ≠ .panic → ∃ action next, held.record d = .ok (action, next) ∧
        (action = .bufferThenEscalate ↔ next.isFull = true) ∧
        (action = .buffer ↔ next.isFull ≠ true) ∧
        (action = .bufferThenEscalate ↔ held.limit.toNat ≤ held.toList.length + 1)) ∧
      (held.isFull = true → ∀ later, (∀ x ∈ held.transcript later, ¬x.MakesRoom) →
        (held.after later).isFull = true) ∧
      (∀ call, (held.exchange call).MakesRoom → (held.attempt call).2.isFull ≠ true) ∧
      (∀ call, held.isFull ≠ true → (held.attempt call).2.isFull = true →
        (held.exchange call).Escalates) ∧
      (held.isFull = true ↔ Filled (l.transcript calls)) := by
  have hstart := create_eq filename hlimit
  refine ⟨_, hstart, ?_⟩
  intro held
  refine ⟨fun d => exists_record, ?_, fun call => isFull_ne_true_of_makesRoom,
    fun call => escalates_of_isFull, ?_⟩
  · exact fun hfull later => isFull_after_of_isFull hfull
  · exact isFull_after_iff (isFull_ne_true_of_toList_eq_nil (toList_create hstart)) calls

/-- With three reports where two are the limit a ledger is full. A limit of five makes room for one
more, and the one after that fills the ledger again. -/
theorem action_agrees_past_limit :
    let about (c : Char) : Diagnostic := ⟨⟨.adHoc [c], none, none⟩, .worry⟩
    let first : List Call := [.record (about 'a'), .record (about 'b'), .record (about 'c')]
    let calls : List Call := first ++ [.setLimit 5, .record (about 'd')]
    (2 : UInt64) ≠ 0 ∧ ∃ l, create ['f'] 2 = .ok l ∧
      Filled (l.transcript first) ∧ ¬Filled (l.transcript calls) ∧
      (about 'e').severity ≠ .panic ∧
      ∃ action next, (l.after calls).record (about 'e') = .ok (action, next) ∧
        action = .bufferThenEscalate ∧ next.isFull = true := by
  intro about first calls
  have hlimit : (2 : UInt64) ≠ 0 := by decide
  obtain ⟨l, hl, -, -, -, -, hfirst⟩ := action_agrees_with_fullness ['f'] hlimit first
  obtain ⟨l', hl', hanswer, -, -, -, hfilled⟩ := action_agrees_with_fullness ['f'] hlimit calls
  obtain rfl := Except.ok.inj (hl.symm.trans hl')
  obtain ⟨action, next, hrecord, hfull, -, hcount⟩ := hanswer (about 'e') (by decide)
  cases hl
  have hescalates : action = .bufferThenEscalate := hcount.mpr (by decide)
  exact ⟨hlimit, _, rfl, hfirst.mp rfl, fun h => absurd (hfilled.mpr h) (by decide), by decide,
    action, next, hrecord, hescalates, hfull.mp hescalates⟩

end ParseReport.Ledger
