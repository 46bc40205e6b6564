import ParseReport.Severity

/-!
# Actions

What becomes of an incoming diagnostic depends only on its severity, on how many
are buffered before it and on the limit.
-/

namespace ParseReport

/-- The largest count that fits in 64 bits. -/
def maxCount : Nat := 0xFFFFFFFFFFFFFFFF

inductive Action
  /-- Store it and go on. -/
  | buffer
  /-- Store it, then fail with all that is stored. -/
  | bufferThenEscalate
  /-- Fail with it alone. -/
  | raiseImmediately
  deriving DecidableEq, Repr

/-- The action for a diagnostic that comes after `buffered` others. The count with it stays within
64 bits. -/
def Action.classify (buffered : Nat) (limit : UInt64) (incoming : Severity) : Action :=
  if incoming.isBufferable then
    if limit.toNat ≤ min (buffered + 1) maxCount then bufferThenEscalate else buffer
  else
    raiseImmediately

theorem Action.classify_eq_raiseImmediately_iff {buffered : Nat} {limit : UInt64} {s : Severity} :
    classify buffered limit s = raiseImmediately ↔ s = .panic := by
  unfold classify
  cases s <;> simp [Severity.isBufferable] <;> split <;> simp

end ParseReport
