import ParseReport.Position.LineTable

/-!
# Locations

A location is a span made ready for display: line and column of its start, the
text of that line, and how many of its characters to mark. The marker is cut at
the end of the line and is never narrower than one character.
-/

namespace ParseReport

/-- A position with the line it lies on. -/
structure Location where
  line : Nat
  column : Nat
  /-- The whole line, without its terminator. -/
  excerpt : Text
  /-- Number of characters to mark. -/
  width : Nat
  deriving DecidableEq, Repr

namespace Location

/-- The marker of `marked` characters from `column` on, on a line of `length` characters. -/
def markerWidth (marked length column : Nat) : Nat :=
  max 1 (min (min marked (length - (column - 1))) maxOffset)

/-- The location of a span of `t`. A span that does not fit `t` marks one character. -/
def ofSpan (t : Text) (span : Span) : Except Fault Location := do
  let table := LineTable.ofText t
  let start ← table.position t span.start.toNat
  let excerpt := (← table.lineText t start.line).getD []
  let marked := ((span.slice? t).getD []).length
  return ⟨start.line, start.column, excerpt, markerWidth marked excerpt.length start.column⟩

end Location

end ParseReport
