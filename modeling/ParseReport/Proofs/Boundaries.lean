import ParseReport.Proofs.Locate
import Mathlib.Order.Bounds.Basic

/-!
# Character boundaries

A boundary is where a front part of a text ends. The floor of an offset is the greatest boundary
that is not above it (`isGreatest_floor`), and a slice is missing exactly where the two offsets are
out of order or one of them is no boundary (`slice?_eq_none_iff`).
-/

namespace ParseReport

namespace Text
variable {t : Text} {n : Nat}

theorem size_le_of_prefix {front : Text} (h : front <+: t) : front.size ≤ t.size := by
  obtain ⟨back, rfl⟩ := h
  rw [size_append]
  exact Nat.le_add_right _ _

/-- Of two initial parts the smaller one begins the other. -/
theorem prefix_of_size_le {a b t : Text} (ha : a <+: t) (hb : b <+: t) (h : a.size ≤ b.size) :
    a <+: b := by
  rcases List.prefix_or_prefix_of_prefix ha hb with hshort | ⟨more, rfl⟩
  · exact hshort
  · have hmore : more.length = 0 := by
      have := length_le_size more
      rw [size_append] at h
      omega
    rw [List.eq_nil_of_length_eq_zero hmore]
    exact (List.append_nil b).symm ▸ List.prefix_refl b

/-- Whether a front part of the text has `n` bytes. -/
def IsBoundary (t : Text) (n : Nat) : Prop := ∃ front : Text, front <+: t ∧ front.size = n

theorem isBoundary_size {front : Text} (h : front <+: t) : t.IsBoundary front.size :=
  ⟨front, h, rfl⟩

theorem IsBoundary.le_size (h : t.IsBoundary n) : n ≤ t.size := by
  obtain ⟨front, hprefix, rfl⟩ := h
  exact size_le_of_prefix hprefix

/-- Something comes after the boundaries and after no other offset. -/
theorem isBoundary_iff_isSome_after? : t.IsBoundary n ↔ (t.after? n).isSome := by
  rw [Option.isSome_iff_exists]
  constructor
  · rintro ⟨front, ⟨back, rfl⟩, rfl⟩
    exact ⟨back, after?_size_append front back⟩
  · rintro ⟨back, hback⟩
    obtain ⟨front, rfl, hsize⟩ := after?_eq_some_iff.mp hback
    exact ⟨front, List.prefix_append front back, hsize⟩

instance (t : Text) (n : Nat) : Decidable (t.IsBoundary n) :=
  decidable_of_iff _ isBoundary_iff_isSome_after?.symm

/-- The front part that the floor of an offset ends is the longest one that fits. -/
theorem isGreatest_floor (t : Text) (n : Nat) :
    IsGreatest {o | t.IsBoundary o ∧ o ≤ n} (t.floor n) := by
  obtain ⟨front, back, ht, hfloor, hfit, hstop⟩ := t.exists_floor n
  have hfront : front <+: t := ⟨back, ht.symm⟩
  rw [hfloor]
  refine ⟨⟨isBoundary_size hfront, hfit⟩, ?_⟩
  rintro _ ⟨⟨longer, hlonger, rfl⟩, hle⟩
  by_contra hlt
  obtain ⟨more, rfl⟩ := prefix_of_size_le hfront hlonger (by omega)
  cases more with
  | nil => simp at hlt
  | cons c more =>
      obtain ⟨rest, hrest⟩ := hlonger
      have hback : back = c :: (more ++ rest) := by
        rw [ht, List.append_assoc] at hrest
        exact (List.append_cancel_left hrest).symm
      have := hstop c _ hback
      simp only [size_append, size_cons] at hle
      omega

theorem isBoundary_floor (t : Text) (n : Nat) : t.IsBoundary (t.floor n) :=
  (t.isGreatest_floor n).1.1

/-- An offset past the end is moved down to the end first. -/
theorem isGreatest_floor_min (t : Text) (n : Nat) :
    IsGreatest {o | t.IsBoundary o ∧ o ≤ min n t.size} (t.floor n) := by
  obtain ⟨⟨hboundary, hle⟩, hupper⟩ := t.isGreatest_floor n
  refine ⟨⟨hboundary, Nat.le_min.mpr ⟨hle, hboundary.le_size⟩⟩, ?_⟩
  rintro o ⟨ho, hmin⟩
  exact hupper ⟨ho, (Nat.le_min.mp hmin).1⟩

theorem IsBoundary.floor_eq (h : t.IsBoundary n) : t.floor n = n := by
  obtain ⟨front, ⟨back, rfl⟩, rfl⟩ := h
  exact floor_size_append front back

theorem floor_mono (t : Text) {m n : Nat} (h : m ≤ n) : t.floor m ≤ t.floor n := by
  apply (t.isGreatest_floor n).2
  exact ⟨t.isBoundary_floor m, (t.floor_le m).trans h⟩

/-- What two boundaries in order have between them, and nothing else, can be sliced. -/
theorem slice?_eq_none_iff {start stop : Nat} :
    t.slice? start stop = none ↔ ¬(start ≤ stop ∧ t.IsBoundary start ∧ t.IsBoundary stop) := by
  rw [← Option.not_isSome_iff_eq_none, not_iff_not, Option.isSome_iff_exists]
  constructor
  · rintro ⟨m, hm⟩
    obtain ⟨a, b, rfl, rfl, rfl⟩ := slice?_eq_some_iff.mp hm
    refine ⟨Nat.le_add_right _ _, isBoundary_size ?_, ?_⟩
    · rw [List.append_assoc]
      exact List.prefix_append a (m ++ b)
    · rw [← size_append]
      exact isBoundary_size (List.prefix_append (a ++ m) b)
  · rintro ⟨hle, ⟨a, ha, rfl⟩, ⟨longer, hlonger, rfl⟩⟩
    obtain ⟨m, rfl⟩ := prefix_of_size_le ha hlonger hle
    obtain ⟨b, rfl⟩ := hlonger
    exact ⟨m, slice?_eq_some_iff.mpr ⟨a, b, rfl, rfl, (size_append a m).symm⟩⟩

/-- What is made of a slice fails only where there is no slice. -/
theorem elim_eq_error_iff {α : Type} {slice : Option Text} {f : Text → α} {fault : Fault} :
    slice.elim (.error .slice) (fun part => .ok (f part)) = Except.error fault ↔
      fault = .slice ∧ slice = none := by
  cases slice with
  | none =>
      constructor
      · rintro ⟨⟩
        exact ⟨rfl, rfl⟩
      · rintro ⟨rfl, -⟩
        rfl
  | some part => exact iff_of_false nofun (fun h => nomatch h.2)

end Text

namespace Span
variable {t : Text} {span : Span}

/-- The span cannot be sliced from the text: it is out of order, past the end, or has an end inside
a character. -/
def Misfits (span : Span) (t : Text) : Prop :=
  span.stop < span.start ∨ t.size < span.start.toNat ∨ t.size < span.stop.toNat ∨
    ¬t.IsBoundary span.start.toNat ∨ ¬t.IsBoundary span.stop.toNat

theorem slice?_eq_none_iff : span.slice? t = none ↔ span.Misfits t := by
  rw [slice?, Text.slice?_eq_none_iff, ← UInt32.le_iff_toNat_le]
  constructor
  · intro h
    by_cases hle : span.start ≤ span.stop
    · exact .inr (.inr (.inr (not_and_or.mp fun hends => h ⟨hle, hends⟩)))
    · exact .inl (UInt32.not_le.mp hle)
  · rintro (horder | hstart | hstop | hstart | hstop) ⟨hle, hboundary, hboundary'⟩
    · exact UInt32.not_le.mpr horder hle
    · exact absurd hboundary.le_size (Nat.not_le.mpr hstart)
    · exact absurd hboundary'.le_size (Nat.not_le.mpr hstop)
    · exact hstart hboundary
    · exact hstop hboundary'

end Span

end ParseReport
