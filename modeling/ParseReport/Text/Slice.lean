import ParseReport.Text.Basic

/-!
# Slices and character boundaries

A slice between two byte offsets exists only if they are in order and both are
character boundaries (`slice?_eq_some_iff`). `floor` moves any offset down to the
nearest boundary (`exists_floor`).
-/

namespace ParseReport.Text

/-- The first `n` bytes; none when `n` is past the end or inside a character. -/
def before? : Text → Nat → Option Text
  | _, 0 => some []
  | [], _ + 1 => none
  | c :: t, n + 1 =>
    if c.utf8Size ≤ n + 1 then (before? t (n + 1 - c.utf8Size)).map (c :: ·) else none

theorem before?_cons_add (c : Char) (t : Text) (n : Nat) :
    before? (c :: t) (c.utf8Size + n) = (t.before? n).map (c :: ·) := by
  have := c.utf8Size_pos
  obtain ⟨k, hk⟩ : ∃ k, c.utf8Size + n = k + 1 := ⟨c.utf8Size + n - 1, by omega⟩
  rw [hk, before?, ite_cond_eq_true _ _ (by simp; omega)]
  congr 2
  omega

theorem before?_size_append (a b : Text) : before? (a ++ b) a.size = some a := by
  induction a with
  | nil => cases b <;> rfl
  | cons c a ih => simp [before?_cons_add, ih]

theorem before?_eq_some_iff {t a : Text} {n : Nat} :
    t.before? n = some a ↔ ∃ r, t = a ++ r ∧ a.size = n := by
  constructor
  · intro h
    induction t generalizing n a with
    | nil =>
      cases n with
      | zero =>
        obtain rfl := Option.some.inj h
        exact ⟨[], rfl, rfl⟩
      | succ n => simp [before?] at h
    | cons c t ih =>
      cases n with
      | zero =>
        obtain rfl := Option.some.inj h
        exact ⟨c :: t, rfl, rfl⟩
      | succ n =>
        rw [before?] at h
        split at h
        · obtain ⟨b, hb, rfl⟩ := Option.map_eq_some_iff.1 h
          obtain ⟨r, rfl, hr⟩ := ih hb
          exact ⟨r, rfl, by simp only [size_cons]; omega⟩
        · simp at h
  · rintro ⟨r, rfl, rfl⟩
    exact before?_size_append a r

/-- The bytes from `start` up to `stop`; none when the offsets are out of order, past the end or
inside a character. -/
def slice? (t : Text) (start stop : Nat) : Option Text :=
  if start ≤ stop then (t.after? start).bind (before? · (stop - start)) else none

/-- A slice splits the text in three. -/
theorem slice?_eq_some_iff {t m : Text} {start stop : Nat} :
    t.slice? start stop = some m ↔
      ∃ a b, t = a ++ m ++ b ∧ a.size = start ∧ start + m.size = stop := by
  unfold slice?
  constructor
  · intro h
    split at h
    · obtain ⟨r, hr, hm⟩ := Option.bind_eq_some_iff.1 h
      obtain ⟨a, rfl, ha⟩ := after?_eq_some_iff.1 hr
      obtain ⟨b, rfl, hb⟩ := before?_eq_some_iff.1 hm
      exact ⟨a, b, by simp, ha, by omega⟩
    · simp at h
  · rintro ⟨a, b, rfl, rfl, rfl⟩
    rw [if_pos (by omega), List.append_assoc, after?_size_append]
    simpa using before?_size_append m b

/-- Bytes of `n` left over once every whole character that fits has been counted off. -/
def excess : Text → Nat → Nat
  | [], n => n
  | c :: t, n => if c.utf8Size ≤ n then excess t (n - c.utf8Size) else n

/-- The greatest character boundary that is not above `n`. -/
def floor (t : Text) (n : Nat) : Nat := n - t.excess n

theorem exists_excess (t : Text) (n : Nat) :
    ∃ a r, t = a ++ r ∧ a.size + t.excess n = n ∧
      ∀ c r', r = c :: r' → t.excess n < c.utf8Size := by
  fun_induction excess t n with
  | case1 n => exact ⟨[], [], rfl, by simp, by simp⟩
  | case2 c t n hle ih =>
    obtain ⟨a, r, rfl, hsize, hlast⟩ := ih
    exact ⟨c :: a, r, rfl, by simp only [size_cons]; omega, hlast⟩
  | case3 c t n hlt =>
    refine ⟨[], c :: t, rfl, by simp, ?_⟩
    rintro c' r' h
    cases h
    omega

/-- The floor of `n` is the end of an initial part that fits, and one character more does not. -/
theorem exists_floor (t : Text) (n : Nat) :
    ∃ a r, t = a ++ r ∧ t.floor n = a.size ∧ a.size ≤ n ∧
      ∀ c r', r = c :: r' → n < a.size + c.utf8Size := by
  obtain ⟨a, r, ht, hsize, hlast⟩ := exists_excess t n
  refine ⟨a, r, ht, by unfold floor; omega, by omega, ?_⟩
  intro c r' hr
  have := hlast c r' hr
  omega

theorem floor_le (t : Text) (n : Nat) : t.floor n ≤ n := Nat.sub_le _ _

end ParseReport.Text
