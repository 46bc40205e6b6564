import ParseReport.Proofs.CharacterIndex

/-!
# Reading by slices

A reader that keeps its byte offset alone has to slice the text for each look at it, and would fail
at an offset inside a character. It never does: after any moves its offset is that of the cursor, and
while it passes a run of characters it stops at boundaries only, so it answers what the cursor does.
-/

namespace ParseReport

/-- A reader that is only a byte offset in a text, with the offset last saved. -/
structure SliceReader where
  offset : Nat
  saved : Nat

namespace SliceReader

def start : SliceReader := ⟨0, 0⟩

/-- The character at an offset, from a slice that goes from there to the end. -/
def peek? (t : Text) (offset : Nat) : Except Fault (Option Char) :=
  match t.slice? offset t.size with
  | none => .error .slice
  | some rest => .ok rest.head?

theorem offset_lt_of_peek? {t : Text} {offset : Nat} {c : Char}
    (h : peek? t offset = .ok (some c)) : offset < t.size := by
  unfold peek? at h
  split at h
  · cases h
  · rename_i rest hslice
    obtain ⟨before, after, rfl, rfl, -⟩ := Text.slice?_eq_some_iff.mp hslice
    cases rest with
    | nil => cases h
    | cons d rest =>
        have := d.utf8Size_pos
        simp only [Text.size_append, Text.size_cons]
        omega

/-- Passes characters that satisfy `p` one by one and counts them, with a slice for each. -/
def eatWhile (t : Text) (p : Char → Bool) (offset : Nat) : Except Fault (Nat × Nat) :=
  match h : peek? t offset with
  | .error fault => .error fault
  | .ok none => .ok (0, offset)
  | .ok (some c) =>
    if p c then
      have := c.utf8Size_pos
      have := offset_lt_of_peek? h
      (eatWhile t p (offset + c.utf8Size)).map fun passed => (passed.1 + 1, passed.2)
    else
      .ok (0, offset)
termination_by t.size - offset

/-- Passes a run of characters, or fails and stays. -/
def pass (t : Text) (b : SliceReader) (p : Char → Bool) : Except Fault Walk.Reply × SliceReader :=
  match eatWhile t p b.offset with
  | .error fault => (.error fault, b)
  | .ok (count, offset) => (.ok (.count count), { b with offset })

/-- Answers one move. A move that fails leaves the reader where it is. -/
def move (t : Text) (b : SliceReader) : Move → Except Fault Walk.Reply × SliceReader
  | .peek => ((peek? t b.offset).map .char, b)
  | .bump =>
    match peek? t b.offset with
    | .error fault => (.error fault, b)
    | .ok none => (.ok (.char none), b)
    | .ok (some c) => (.ok (.char (some c)), { b with offset := b.offset + c.utf8Size })
  | .eat expected =>
    match peek? t b.offset with
    | .error fault => (.error fault, b)
    | .ok next =>
      if next = some expected then
        (.ok (.eaten true), { b with offset := b.offset + expected.utf8Size })
      else
        (.ok (.eaten false), b)
  | .eatWhile p => b.pass t p
  | .eatUntil p => b.pass t (!p ·)
  | .save => (.ok .done, { b with saved := b.offset })
  | .restore => (.ok .done, { b with offset := b.saved })

/-- The offsets of a walk. -/
def ofWalk (w : Walk) : SliceReader := ⟨w.cursor.offset, w.saved.offset⟩

end SliceReader

namespace Cursor

/-- The text from a cursor on can be sliced. -/
theorem slice?_rest (c : Cursor) : c.text.slice? c.offset c.text.size = some c.rest := by
  obtain ⟨before, htext, hsize⟩ := Text.after?_eq_some_iff.mp c.after?_offset
  refine Text.slice?_eq_some_iff.mpr ⟨before, [], ?_, hsize, ?_⟩
  · rw [← htext, List.append_nil]
  · rw [← hsize, ← Text.size_append, ← htext]

theorem sliceReader_peek? (c : Cursor) : SliceReader.peek? c.text c.offset = .ok c.peek? := by
  rw [SliceReader.peek?, c.slice?_rest]
  rfl

theorem offset_advance_one {c : Cursor} {ch : Char} (h : c.peek? = some ch) :
    (c.advance 1).offset = c.offset + ch.utf8Size := by
  obtain ⟨rest, hrest⟩ := List.head?_eq_some_iff.mp h
  rw [offset_advance, hrest]
  rfl

theorem rest_advance_one {c : Cursor} {ch : Char} {rest : Text} (h : c.rest = ch :: rest) :
    (c.advance 1).rest = rest := by
  rw [rest_advance, h]
  rfl

/-- A cursor passes a run by passing its first character and then the rest of it. -/
theorem eatWhile_cons {c : Cursor} {ch : Char} {rest : Text} {p : Char → Bool}
    (hrest : c.rest = ch :: rest) (hp : p ch = true) :
    c.eatWhile p = (((c.advance 1).eatWhile p).1 + 1, ((c.advance 1).eatWhile p).2) := by
  have hrun : c.rest.takeWhile p = ch :: (c.advance 1).rest.takeWhile p := by
    rw [rest_advance_one hrest, hrest]
    exact List.takeWhile_cons_of_pos hp
  rw [eatWhile, eatWhile, hrun, List.length_cons, advance_advance, Nat.add_comm 1]

theorem eatWhile_of_not {c : Cursor} {p : Char → Bool} (h : c.peek?.any p = false) :
    c.eatWhile p = (0, c) := by
  have hnone : c.rest.takeWhile p = [] := by
    cases hrest : c.rest with
    | nil => rfl
    | cons ch rest =>
        rw [peek?, hrest] at h
        exact List.takeWhile_cons_of_neg (Bool.eq_false_iff.mp h)
  rw [eatWhile, hnone, List.length_nil, advance_zero]

end Cursor

namespace SliceReader

theorem eatWhile_of_none {t : Text} {p : Char → Bool} {offset : Nat}
    (h : peek? t offset = .ok none) : eatWhile t p offset = .ok (0, offset) := by
  rw [eatWhile.eq_def]
  split <;> simp_all

theorem eatWhile_of_some {t : Text} {p : Char → Bool} {offset : Nat} {c : Char}
    (h : peek? t offset = .ok (some c)) :
    eatWhile t p offset =
      if p c then (eatWhile t p (offset + c.utf8Size)).map fun passed => (passed.1 + 1, passed.2)
      else .ok (0, offset) := by
  rw [eatWhile.eq_def]
  split <;> simp_all

/-- Passing a run one by one, every slice starts at a boundary. -/
theorem eatWhile_eq (c : Cursor) (p : Char → Bool) :
    eatWhile c.text p c.offset = .ok ((c.eatWhile p).1, (c.eatWhile p).2.offset) := by
  induction hrest : c.rest generalizing c with
  | nil =>
      have hpeek : c.peek? = none := by rw [Cursor.peek?, hrest]; rfl
      have hstop : c.peek?.any p = false := by rw [hpeek]; rfl
      rw [eatWhile_of_none (by rw [c.sliceReader_peek?, hpeek]), Cursor.eatWhile_of_not hstop]
  | cons ch rest ih =>
      have hpeek : c.peek? = some ch := by rw [Cursor.peek?, hrest]; rfl
      rw [eatWhile_of_some (by rw [c.sliceReader_peek?, hpeek])]
      by_cases hp : p ch = true
      · have hlater := ih (c.advance 1) (Cursor.rest_advance_one hrest)
        rw [Cursor.text_advance, Cursor.offset_advance_one hpeek] at hlater
        rw [if_pos hp, hlater, Cursor.eatWhile_cons hrest hp]
        rfl
      · have hstop : c.peek?.any p = false := by
          rw [hpeek]
          exact Bool.eq_false_iff.mpr hp
        rw [if_neg hp, Cursor.eatWhile_of_not hstop]

theorem pass_eq {w : Walk} {t : Text} (htext : w.cursor.text = t) (p : Char → Bool) :
    (ofWalk w).pass t p = (.ok (.count (w.cursor.eatWhile p).1),
      ofWalk { w with cursor := (w.cursor.eatWhile p).2 }) := by
  have heat := eatWhile_eq w.cursor p
  rw [htext] at heat
  rw [pass]
  simp only [ofWalk, heat]

/-- No move of a walk needs a slice that does not start at a boundary. -/
theorem move_eq {w : Walk} {t : Text} (htext : w.cursor.text = t) (m : Move) :
    (ofWalk w).move t m = (.ok (w.move m).1, ofWalk (w.move m).2) := by
  have hpeek : peek? t (ofWalk w).offset = .ok w.cursor.peek? := htext ▸ w.cursor.sliceReader_peek?
  cases m with
  | peek => rw [move, hpeek]; rfl
  | bump =>
      rw [move, hpeek, Walk.move, Cursor.bump?]
      cases hnext : w.cursor.peek? with
      | none => rfl
      | some c =>
          simp only [Option.map_some, ofWalk, Cursor.offset_advance_one hnext]
  | eat expected =>
      rw [move, hpeek, Walk.move, Cursor.eat?]
      by_cases hnext : w.cursor.peek? = some expected
      · simp only [if_pos hnext, ofWalk, Cursor.offset_advance_one hnext]
      · simp only [if_neg hnext]
  | eatWhile p => exact pass_eq htext p
  | eatUntil p => exact pass_eq htext (!p ·)
  | save => rfl
  | restore => rfl

/-- The same for any row of moves. -/
theorem run_eq {w : Walk} {t : Text} {x : IndexReader} (h : w.StandsAt t x) (moves : List Move) :
    Move.run (SliceReader.move t) (ofWalk w) moves =
      ((Move.run Walk.move w moves).1.map .ok, ofWalk (Move.run Walk.move w moves).2) := by
  induction moves generalizing w x with
  | nil => rfl
  | cons m moves ih =>
      rw [Move.run_cons, Move.run_cons, move_eq h.cursor.text m, ih (h.move m).2]
      rfl

end SliceReader

/-- After any moves a cursor has answered as an index into the characters does, and as a reader does
that slices at its offset for each character, without a slice that fails. Its offset is the size of
the characters before the index, and no move but going back makes it smaller. Calls on a walk that
move are these moves. -/
theorem cursor_is_character_index (t : Text) (moves : List Move) :
    let walked := Move.run Walk.move (.start t) moves
    let indexed := Move.run (IndexReader.move t) .start moves
    let sliced := Move.run (SliceReader.move t) .start moves
    let cursor := walked.2.cursor
    walked.1 = indexed.1 ∧
    (cursor.offset = Text.size (t.take indexed.2.next) ∧ t.IsBoundary cursor.offset ∧
      cursor.offset ≤ t.size) ∧
    (t.slice? 0 cursor.offset = some (t.take indexed.2.next) ∧
      t.slice? cursor.offset t.size = some cursor.rest ∧
      t.take indexed.2.next ++ cursor.rest = t) ∧
    (sliced.1 = walked.1.map .ok ∧ sliced.2.offset = cursor.offset) ∧
    (∀ m ≠ Move.restore, cursor.offset ≤ (walked.2.move m).2.cursor.offset) ∧
    ∀ (call : Walk.Call) (m : Move), call.move? = some m →
      walked.2.perform call = (.ok (walked.2.move m).1, (walked.2.move m).2) := by
  intro walked indexed sliced cursor
  obtain ⟨hreplies, hstands⟩ := (Walk.StandsAt.start t).run moves
  have hsliced : sliced = (walked.1.map .ok, SliceReader.ofWalk walked.2) :=
    SliceReader.run_eq (.start t) moves
  have hboundary : t.IsBoundary cursor.offset := hstands.cursor.isBoundary
  obtain ⟨hpassed, hrest⟩ := hstands.cursor.slices
  refine ⟨hreplies, ⟨hstands.cursor.offset, hboundary, hboundary.le_size⟩, ⟨hpassed, hrest, ?_⟩,
    ⟨congrArg Prod.fst hsliced, ?_⟩, fun m hm => Walk.offset_le_move hm _,
    fun call m hm => Walk.perform_of_move? hm _⟩
  · rw [hstands.cursor.rest]
    exact List.take_append_drop _ t
  · rw [hsliced]
    rfl

/-- A run up to a blank, then a look behind the blank, and back. -/
theorem cursor_is_character_index_behind_blank :
    let t : Text := "aβ γ".toList
    let moves : List Move := [.eatUntil (· = ' '), .save, .bump, .eat 'γ', .restore]
    let walk := (Move.run Walk.move (.start t) moves).2
    (Move.bump ≠ .restore ∧ Walk.Call.bump.move? = some .bump) ∧
      (Move.run Walk.move (.start t) moves).1 =
        [.count 2, .done, .char (some ' '), .eaten true, .done] ∧
      walk.cursor.offset = 3 ∧ walk.cursor.offset ≤ (walk.move .bump).2.cursor.offset ∧
      walk.perform .bump = (.ok (walk.move .bump).1, (walk.move .bump).2) := by
  intro t moves walk
  obtain ⟨hreplies, ⟨hoffset, -, -⟩, -, -, hforward, hcalls⟩ := cursor_is_character_index t moves
  have hindexed : Move.run (IndexReader.move t) .start moves =
      ([.count 2, .done, .char (some ' '), .eaten true, .done], ⟨2, 2⟩) := by decide +kernel
  rw [hindexed] at hreplies hoffset
  exact ⟨⟨nofun, rfl⟩, hreplies, hoffset, hforward _ nofun, hcalls _ _ rfl⟩

end ParseReport
