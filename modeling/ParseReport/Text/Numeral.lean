import ParseReport.Text.Basic

/-!
# Numerals

Numbers are written in decimal, and in upper-case hexadecimal where a bound is
named. A count is read from ASCII digits with at most one `+` before them.
-/

namespace ParseReport.Text

/-- The decimal digits of `n`. -/
def decimal (n : Nat) : Text := Nat.toDigits 10 n

/-- The hexadecimal digits of `n`, in upper case. -/
def hexadecimal (n : Nat) : Text := (Nat.toDigits 16 n).map Char.toUpper

/-- The value of a run of decimal digits. -/
def digitsValue (digits : Text) : Nat :=
  digits.foldl (fun value c => value * 10 + (c.toNat - '0'.toNat)) 0

/-- The digits of a count, which may have one `+` before them. -/
def unsigned : Text → Text
  | '+' :: digits => digits
  | digits => digits

/-- Reads a count below `bound`; none for no digit, another character or a larger value. -/
def count? (t : Text) (bound : Nat) : Option Nat :=
  let digits := unsigned t
  if digits ≠ [] ∧ digits.all Char.isDigit ∧ digitsValue digits < bound then
    some (digitsValue digits)
  else
    none

end ParseReport.Text
