/-!
# Texts and their byte offsets

A text is a list of code points. Offsets into it count the bytes of its UTF-8
form, so some offsets lie inside a character, and nothing comes after those:
`after?_eq_some_iff` says which offsets are left.
-/

namespace ParseReport

/-- A text: its code points in order. -/
abbrev Text := List Char

namespace Text

/-- Number of bytes of the UTF-8 form. -/
def size (t : Text) : Nat := t.foldr (fun c n => c.utf8Size + n) 0

@[simp] theorem size_nil : size [] = 0 := rfl

@[simp] theorem size_cons (c : Char) (t : Text) : size (c :: t) = c.utf8Size + size t := rfl

@[simp] theorem size_append (a b : Text) : size (a ++ b) = size a + size b := by
  induction a with
  | nil => simp
  | cons c a ih => simp [ih, Nat.add_assoc]

theorem length_le_size (t : Text) : t.length ≤ t.size := by
  induction t with
  | nil => simp
  | cons c t ih =>
    have := c.utf8Size_pos
    simp only [List.length_cons, size_cons]
    omega

/-- What follows the first `n` bytes; none when `n` is past the end or inside a character. -/
def after? : Text → Nat → Option Text
  | t, 0 => some t
  | [], _ + 1 => none
  | c :: t, n + 1 => if c.utf8Size ≤ n + 1 then after? t (n + 1 - c.utf8Size) else none

@[simp] theorem after?_zero (t : Text) : t.after? 0 = some t := by
  cases t <;> rfl

theorem after?_cons_add (c : Char) (t : Text) (n : Nat) :
    after? (c :: t) (c.utf8Size + n) = t.after? n := by
  have := c.utf8Size_pos
  obtain ⟨k, hk⟩ : ∃ k, c.utf8Size + n = k + 1 := ⟨c.utf8Size + n - 1, by omega⟩
  rw [hk, after?, ite_cond_eq_true _ _ (by simp; omega)]
  congr 1
  omega

theorem after?_size_append (a b : Text) : after? (a ++ b) a.size = some b := by
  induction a with
  | nil => simp
  | cons c a ih => simp [after?_cons_add, ih]

/-- The offsets with something after them are exactly the sizes of the initial parts. -/
theorem after?_eq_some_iff {t r : Text} {n : Nat} :
    t.after? n = some r ↔ ∃ a, t = a ++ r ∧ a.size = n := by
  constructor
  · intro h
    fun_induction after? t n with
    | case1 t => exact ⟨[], by simpa using h, rfl⟩
    | case2 => simp at h
    | case3 c t n hle ih =>
      obtain ⟨a, rfl, ha⟩ := ih h
      exact ⟨c :: a, rfl, by simp only [size_cons]; omega⟩
    | case4 => simp at h
  · rintro ⟨a, rfl, rfl⟩
    exact after?_size_append a r

/-- Two steps forward are one. -/
theorem after?_add {t a r : Text} {n : Nat} (h : t.after? n = some (a ++ r)) :
    t.after? (n + a.size) = some r := by
  obtain ⟨b, rfl, rfl⟩ := after?_eq_some_iff.1 h
  exact after?_eq_some_iff.2 ⟨b ++ a, by simp, by simp⟩

end Text

end ParseReport
