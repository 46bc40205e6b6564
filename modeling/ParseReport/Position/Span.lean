import ParseReport.Text.Numeral
import ParseReport.Text.Slice

/-!
# Spans

A span is a pair of 32-bit byte offsets. It may be out of order or not fit the
text it is used on; who slices with it has to check.
-/

namespace ParseReport

/-- The largest offset, line number or column. -/
def maxOffset : Nat := 0xFFFFFFFF

/-- An end of a range that does not fit in 32 bits. -/
inductive SpanError
  | startTooLarge (offset : Nat)
  | stopTooLarge (offset : Nat)
  deriving DecidableEq, Repr

namespace SpanError

/-- The text of an error about the named end of a range. -/
def tooLarge (which : Text) (offset : Nat) : Text :=
  "span ".toList ++ which ++ " ".toList ++ Text.decimal offset ++ " (0x".toList
    ++ Text.hexadecimal offset ++ ") exceeds u32::MAX (0x".toList
    ++ Text.hexadecimal maxOffset ++ ")".toList

/-- What the error says. -/
def message : SpanError → Text
  | .startTooLarge offset => tooLarge "start".toList offset
  | .stopTooLarge offset => tooLarge "end".toList offset

end SpanError

/-- The bytes from `start` up to but without `stop`. -/
structure Span where
  start : UInt32
  stop : UInt32
  deriving DecidableEq, Repr, Inhabited

namespace Span

/-- The span of a range of offsets of any size. The start is tested first. -/
def ofRange (start stop : Nat) : Except SpanError Span :=
  if maxOffset < start then .error (.startTooLarge start)
  else if maxOffset < stop then .error (.stopTooLarge stop)
  else .ok ⟨start.toUInt32, stop.toUInt32⟩

/-- The span of no bytes at an offset. -/
def point (offset : UInt32) : Span := ⟨offset, offset⟩

/-- Number of bytes; zero when the offsets are out of order. -/
def length (s : Span) : Nat := s.stop.toNat - s.start.toNat

/-- Whether the span holds no byte. -/
def isEmpty (s : Span) : Bool := s.stop ≤ s.start

/-- The part of `t` under the span, if its ends fit. -/
def slice? (s : Span) (t : Text) : Option Text := t.slice? s.start.toNat s.stop.toNat

/-- The written form `start..stop`. -/
def render (s : Span) : Text :=
  Text.decimal s.start.toNat ++ "..".toList ++ Text.decimal s.stop.toNat

end Span

end ParseReport
