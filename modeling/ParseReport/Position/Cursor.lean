import ParseReport.Position.Anchor

/-!
# Cursors

A cursor stands between two characters of a text. It knows its byte offset and
the rest of the text from there, so reading never slices. Every move passes a
number of whole characters (`advance`); a stretch between two cursor positions
becomes a match.
-/

namespace ParseReport

/-- A stretch of a text, kept as a span so that it can be pointed at later. -/
structure Match where
  text : Text
  span : Span
  deriving DecidableEq, Repr

namespace Match

/-- The characters of the stretch. -/
def spelling (m : Match) : Except Fault Text :=
  match m.span.slice? m.text with
  | none => .error .slice
  | some spelling => .ok spelling

def anchor (m : Match) : Anchor := .attached m.text m.span

end Match

/-- A character boundary of a text, with what comes after it. -/
structure Cursor where
  text : Text
  /-- Bytes before the cursor. -/
  offset : Nat
  rest : Text
  after?_offset : text.after? offset = some rest

namespace Cursor

/-- The cursor before the first character. -/
def start (t : Text) : Cursor := ⟨t, 0, t, t.after?_zero⟩

/-- Passes `n` characters, or all of the rest when it has fewer. -/
def advance (c : Cursor) (n : Nat) : Cursor where
  text := c.text
  offset := c.offset + Text.size (c.rest.take n)
  rest := c.rest.drop n
  after?_offset := Text.after?_add (by simpa using c.after?_offset)

@[simp] theorem text_advance (c : Cursor) (n : Nat) : (c.advance n).text = c.text := rfl

@[simp] theorem rest_advance (c : Cursor) (n : Nat) : (c.advance n).rest = c.rest.drop n := rfl

theorem offset_advance (c : Cursor) (n : Nat) :
    (c.advance n).offset = c.offset + Text.size (c.rest.take n) := rfl

@[simp] theorem advance_zero (c : Cursor) : c.advance 0 = c := by
  simp [advance]

/-- Two moves are one. -/
@[simp] theorem advance_advance (c : Cursor) (m n : Nat) :
    (c.advance m).advance n = c.advance (m + n) := by
  simp [advance, List.take_add, Nat.add_assoc]

/-- The next character. -/
def peek? (c : Cursor) : Option Char := c.rest.head?

/-- Passes the next character. -/
def bump? (c : Cursor) : Option (Char × Cursor) :=
  c.peek?.map (·, c.advance 1)

theorem rest_of_bump? {c c' : Cursor} {ch : Char} (h : c.bump? = some (ch, c')) :
    c.rest = ch :: c'.rest := by
  simp only [bump?, peek?, Option.map_eq_some_iff, Prod.mk.injEq] at h
  obtain ⟨_, hhead, rfl, rfl⟩ := h
  cases hrest : c.rest with
  | nil => simp [hrest] at hhead
  | cons => simp_all

/-- Passes the next character if it is `expected`. -/
def eat? (c : Cursor) (expected : Char) : Option Cursor :=
  if c.peek? = some expected then some (c.advance 1) else none

/-- Passes the longest run of characters that satisfy `p`, and counts them. -/
def eatWhile (c : Cursor) (p : Char → Bool) : Nat × Cursor :=
  let count := (c.rest.takeWhile p).length
  (count, c.advance count)

/-- The stretch from an earlier offset up to the cursor. -/
def matched (c : Cursor) (start : Nat) : Except SpanError Match :=
  (Span.ofRange start c.offset).map (⟨c.text, ·⟩)

/-- The place of the cursor. -/
def anchor (c : Cursor) : Anchor := .point c.text (min c.offset maxOffset).toUInt32

end Cursor

end ParseReport
