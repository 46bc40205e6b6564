import Mathlib.Data.List.Forall2

/-!
# Steps that succeed

A step succeeds if each of its parts does, and a row of steps succeeds with the results of the
single steps. A chain, in which each step works on the result of the one before it, fails with the
first step that fails.
-/

namespace ParseReport
variable {ε α β : Type}

section Single
variable {r : Except ε α} {b : β}

theorem bind_eq_ok_iff {next : α → Except ε β} :
    (r >>= next) = .ok b ↔ ∃ a, r = .ok a ∧ next a = .ok b := by
  cases r with
  | error e => exact ⟨nofun, nofun⟩
  | ok a =>
      constructor
      · exact fun h => ⟨a, rfl, h⟩
      · rintro ⟨_, ⟨⟩, h⟩
        exact h

theorem map_eq_ok_iff {f : α → β} : r.map f = .ok b ↔ ∃ a, r = .ok a ∧ f a = b := by
  cases r with
  | error e => exact ⟨nofun, nofun⟩
  | ok a =>
      constructor
      · exact fun h => ⟨a, rfl, Except.ok.inj h⟩
      · rintro ⟨_, ⟨⟩, h⟩
        exact congrArg Except.ok h

end Single

section Row
variable {f : α → Except ε β} {row : List α}

theorem mapM_eq_ok_iff {results : List β} :
    row.mapM f = .ok results ↔ List.Forall₂ (fun a b => f a = .ok b) row results := by
  induction row generalizing results with
  | nil =>
      rw [List.forall₂_nil_left_iff, List.mapM_nil]
      exact ⟨fun h => (Except.ok.inj h).symm, fun h => congrArg Except.ok h.symm⟩
  | cons a row ih =>
      simp only [List.mapM_cons, bind_eq_ok_iff, ih, List.forall₂_cons_left_iff]
      constructor
      · rintro ⟨b, ha, rest, hrest, ⟨⟩⟩
        exact ⟨b, rest, ha, hrest, rfl⟩
      · rintro ⟨b, rest, ha, hrest, rfl⟩
        exact ⟨b, ha, rest, hrest, rfl⟩

theorem exists_mapM_eq_ok (h : ∀ a ∈ row, ∃ b, f a = .ok b) :
    ∃ results, row.mapM f = .ok results := by
  induction row with
  | nil => exact ⟨[], rfl⟩
  | cons a row ih =>
      obtain ⟨⟨b, hb⟩, hrow⟩ := List.forall_mem_cons.mp h
      obtain ⟨rest, hrest⟩ := ih hrow
      exact ⟨b :: rest, mapM_eq_ok_iff.mpr (.cons hb (mapM_eq_ok_iff.mp hrest))⟩

theorem exists_of_mem_mapM {results : List β} {b : β} (hrow : row.mapM f = .ok results)
    (hb : b ∈ results) : ∃ a ∈ row, f a = .ok b := by
  have hpairs := mapM_eq_ok_iff.mp hrow
  clear hrow
  induction hpairs with
  | nil => cases hb
  | @cons a b' row results hfirst _ ih =>
      rcases List.mem_cons.mp hb with rfl | hb
      · exact ⟨a, List.mem_cons_self, hfirst⟩
      · obtain ⟨a', ha', hb⟩ := ih hb
        exact ⟨a', List.mem_cons_of_mem a ha', hb⟩

end Row

section Chain
variable {σ : Type} {f : σ → α → Except ε σ} {start : σ} {row : List α}

/-- A chain of steps fails with the first step that does. -/
theorem foldlM_eq_error_iff {e : ε} :
    row.foldlM f start = .error e ↔ ∃ before a later state,
      row = before ++ a :: later ∧ before.foldlM f start = .ok state ∧ f state a = .error e := by
  constructor
  · intro h
    induction row generalizing start with
    | nil => cases h
    | cons a row ih =>
        rw [List.foldlM_cons] at h
        cases hfirst : f start a with
        | error e' =>
            rw [hfirst] at h
            cases h
            exact ⟨[], a, row, start, rfl, rfl, hfirst⟩
        | ok next =>
            rw [hfirst] at h
            obtain ⟨before, a', later, state, rfl, hbefore, herror⟩ := ih h
            refine ⟨a :: before, a', later, state, rfl, ?_, herror⟩
            rw [List.foldlM_cons, hfirst]
            exact hbefore
  · rintro ⟨before, a, later, state, rfl, hbefore, herror⟩
    rw [List.foldlM_append, hbefore]
    change (a :: later).foldlM f state = _
    rw [List.foldlM_cons, herror]
    rfl

end Chain

end ParseReport
