import ParseReport.Position.Ordinal
import ParseReport.Text.Line

/-!
# Line tables

A line table holds the offset at which each line of a text starts, so that the
line of an offset is found by binary search. The lookups take the text again:
they may be given another text than the one the table was built from, and then
a line start can lie inside one of its characters.
-/

namespace ParseReport

/-- The offsets of the line starts, in increasing order. -/
structure LineTable where
  starts : Array Nat
  deriving DecidableEq, Repr

namespace LineTable

/-- The table without any line. -/
def empty : LineTable := ⟨#[]⟩

/-- Passes one character: the offset after it, and the starts with the one it may bring. -/
def addStart (state : Nat × Array Nat) (c : Char) : Nat × Array Nat :=
  let next := state.1 + c.utf8Size
  (next, if c = '\n' then state.2.push (min next maxOffset) else state.2)

/-- The table of a text: a line starts at 0 and after each `\n`. -/
def ofText (t : Text) : LineTable := ⟨(t.foldl addStart (0, #[0])).2⟩

/-- Number of lines. The text after the last `\n` counts as one even when it is empty. -/
def lineCount (table : LineTable) : Nat := table.starts.size

/-- The first index of `lo..hi` whose entry is above `offset`, or `hi`. -/
def firstAbove (starts : Array Nat) (offset lo hi : Nat) (hsize : hi ≤ starts.size) : Nat :=
  if hlt : lo < hi then
    let mid := lo + (hi - lo) / 2
    if starts[mid] ≤ offset then
      firstAbove starts offset (mid + 1) hi hsize
    else
      firstAbove starts offset lo mid (by omega)
  else
    lo
termination_by hi - lo

theorem firstAbove_le {starts : Array Nat} {offset lo hi : Nat} (hsize : hi ≤ starts.size)
    (hlo : lo ≤ hi) : firstAbove starts offset lo hi hsize ≤ hi := by
  fun_induction firstAbove starts offset lo hi hsize with
  | case1 lo hi hsize hlt mid hle ih => exact ih (by omega)
  | case2 lo hi hsize hlt mid hgt ih => exact Nat.le_trans (ih (by omega)) (by omega)
  | case3 => exact hlo

/-- The number of the line that holds an offset. Without lines this is 1. -/
def lineAt (table : LineTable) (offset : Nat) : Except Fault Nat :=
  ordinal (firstAbove table.starts offset 0 table.starts.size (Nat.le_refl _) - 1)

/-- The offset at which a line starts, if there is such a line. -/
def lineStart? (table : LineTable) (line : Nat) : Option Nat :=
  if line = 0 then none else table.starts[line - 1]?

/-- Line and column of an offset in `t`. The offset is moved down to a character boundary of `t`
first; the column counts the characters from the start of the line. -/
def position (table : LineTable) (t : Text) (offset : Nat) : Except Fault Position := do
  let stop := t.floor offset
  let line ← table.lineAt (min stop maxOffset)
  let start := min ((table.lineStart? line).getD 0) stop
  match t.slice? start stop with
  | none => throw .slice
  | some passed => return ⟨line, ← ordinal passed.length⟩

/-- A line of `t` without its terminator; none when the table has no such line. -/
def lineText (table : LineTable) (t : Text) (line : Nat) : Except Fault (Option Text) := do
  match table.lineStart? line with
  | none => return none
  | some start =>
    let next ← successor line
    let stop := (table.lineStart? next).getD t.size
    match t.slice? (min start t.size) (min stop t.size) with
    | none => throw .slice
    | some raw => return some raw.withoutTerminator

end LineTable

end ParseReport
