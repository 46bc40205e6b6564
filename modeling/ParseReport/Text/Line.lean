import ParseReport.Text.Basic

/-!
# Lines of a text

A line runs up to its `\n`. A text that does not end in `\n` has one last line
without a terminator, and the empty text has no line.
-/

namespace ParseReport.Text

/-- Takes one character: the lines begun so far, and whether the last of them still runs. -/
def countLine (state : Nat × Bool) (c : Char) : Nat × Bool :=
  (if state.2 then state.1 else state.1 + 1, c ≠ '\n')

/-- Number of lines: one begins with each character that continues none. -/
def lineCount (t : Text) : Nat := (t.foldl countLine (0, false)).1

/-- Drops one `c` from the end, if there is one. -/
def dropFinal (t : Text) (c : Char) : Text :=
  if t.getLast? = some c then t.dropLast else t

/-- A line without its terminator, which is `\n` or `\r\n`. A last line may also end in a lone
`\r`, which goes as well. -/
def withoutTerminator (line : Text) : Text :=
  (line.dropFinal '\n').dropFinal '\r'

end ParseReport.Text
