import ParseReport.Position.Span

/-!
# Ordinals

Lines and columns are counted from one in 32 bits. A count that does not fit is
cut to the largest one before it is made an ordinal, so only the count
`maxOffset` itself has no ordinal.
-/

namespace ParseReport

/-- What can go wrong when a position is looked up. -/
inductive Fault
  /-- A slice with its ends out of order, past the end or inside a character. -/
  | slice
  /-- A sum that does not fit in 32 bits. -/
  | overflow
  deriving DecidableEq, Repr

/-- What the fault says; a bad slice has no fixed wording. -/
def Fault.message? : Fault → Option Text
  | .slice => none
  | .overflow => some "attempt to add with overflow".toList

/-- The number after `n`. -/
def successor (n : Nat) : Except Fault Nat :=
  if n < maxOffset then .ok (n + 1) else .error .overflow

/-- The ordinal of what comes after `count` others. -/
def ordinal (count : Nat) : Except Fault Nat :=
  successor (if count ≤ maxOffset then count else maxOffset - 1)

theorem successor_of_lt {n : Nat} (h : n < maxOffset) : successor n = .ok (n + 1) :=
  if_pos h

theorem ordinal_of_lt {count : Nat} (h : count < maxOffset) :
    ordinal count = .ok (count + 1) := by
  rw [ordinal, if_pos (Nat.le_of_lt h), successor_of_lt h]

theorem ordinal_eq_error_iff {count : Nat} {fault : Fault} :
    ordinal count = .error fault ↔ fault = .overflow ∧ count = maxOffset := by
  unfold ordinal successor maxOffset
  split <;> split <;> cases fault <;> simp <;> omega

/-- A line and a column, both counted from one. -/
structure Position where
  line : Nat
  column : Nat
  deriving DecidableEq, Repr

end ParseReport
