import ParseReport.Text.Numeral

/-!
# Severities

A worry leaves the parse unaffected, a regret makes its result wrong but lets it
go on, a panic ends it. Reports name them `worry`, `sorry` and `panic`.
-/

namespace ParseReport

/-- How serious a problem is. -/
inductive Severity
  | worry
  | regret
  | panic
  deriving DecidableEq, Repr

namespace Severity

/-- The severities from the least to the most serious. -/
def rank : Severity → Nat
  | worry => 0
  | regret => 1
  | panic => 2

instance : Ord Severity := ⟨fun a b => compare a.rank b.rank⟩

/-- The name that reports use. -/
def label : Severity → Text
  | worry => "worry".toList
  | regret => "sorry".toList
  | panic => "panic".toList

/-- The name for any number but one. -/
def plural : Severity → Text
  | worry => "worries".toList
  | regret => "sorries".toList
  | panic => "panics".toList

/-- A number of diagnostics of this severity, as in `2 worries`. -/
def counted (s : Severity) (count : Nat) : Text :=
  Text.decimal count ++ " ".toList ++ (if count = 1 then s.label else s.plural)

/-- Whether a diagnostic may be held back and reported later. -/
def isBufferable : Severity → Bool
  | panic => false
  | _ => true

theorem isBufferable_eq_false_iff {s : Severity} : s.isBufferable = false ↔ s = panic := by
  cases s <;> simp [isBufferable]

end Severity

end ParseReport
