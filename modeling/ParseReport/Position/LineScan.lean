import ParseReport.Position.Ordinal

/-!
# Positions by one scan

For a single lookup no table is needed: one pass over the text up to the offset
counts the line ends and the characters since the last of them.
-/

namespace ParseReport.Text

/-- Passes the whole characters within the next `fuel` bytes, counting `\n` and the characters
after the last one. -/
def scanLines : Text → Nat → Nat × Nat → Nat × Nat
  | [], _, counts => counts
  | c :: t, fuel, (ends, since) =>
    if c.utf8Size ≤ fuel then
      scanLines t (fuel - c.utf8Size) (if c = '\n' then (ends + 1, 0) else (ends, since + 1))
    else
      (ends, since)

/-- Line and column of an offset, moved down to a character boundary. -/
def position (t : Text) (offset : Nat) : Except Fault Position := do
  let (ends, since) := t.scanLines offset (0, 0)
  return ⟨← successor ends, ← ordinal since⟩

end ParseReport.Text
