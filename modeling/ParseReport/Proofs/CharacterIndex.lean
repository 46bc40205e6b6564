import ParseReport.Position.Walk
import ParseReport.Proofs.Boundaries
import Mathlib.Data.Nat.Find

/-!
# A cursor is an index into the characters

A cursor counts bytes, and what it stands for is the number of characters passed: with that index
as its only state, a reader answers the same to every move. The offset of the cursor is the size of
the characters before the index, so it is a boundary, and the rest is what comes from there on.
-/

namespace ParseReport

/-- What can be asked of a reader. -/
inductive Move
  | peek
  | bump
  | eat (expected : Char)
  /-- Passes characters that satisfy `p`. -/
  | eatWhile (p : Char → Bool)
  /-- Passes characters that do not satisfy `p`. -/
  | eatUntil (p : Char → Bool)
  | save
  | restore

namespace Move
variable {σ ρ : Type}

/-- Makes the moves in order. The replies come with the state after the last move. -/
def run (step : σ → Move → ρ × σ) : σ → List Move → List ρ × σ
  | state, [] => ([], state)
  | state, move :: moves =>
    let answer := step state move
    let later := run step answer.2 moves
    (answer.1 :: later.1, later.2)

@[simp] theorem run_cons (step : σ → Move → ρ × σ) (state : σ) (move : Move) (moves : List Move) :
    run step state (move :: moves) =
      ((step state move).1 :: (run step (step state move).2 moves).1,
        (run step (step state move).2 moves).2) := rfl

end Move

namespace Walk

/-- Answers one move, with what the cursor does. -/
def move (w : Walk) : Move → Reply × Walk
  | .peek => (.char w.cursor.peek?, w)
  | .bump =>
    match w.cursor.bump? with
    | none => (.char none, w)
    | some (c, cursor) => (.char (some c), { w with cursor })
  | .eat expected =>
    match w.cursor.eat? expected with
    | none => (.eaten false, w)
    | some cursor => (.eaten true, { w with cursor })
  | .eatWhile p => (.count (w.cursor.eatWhile p).1, { w with cursor := (w.cursor.eatWhile p).2 })
  | .eatUntil p =>
    (.count (w.cursor.eatWhile (!p ·)).1, { w with cursor := (w.cursor.eatWhile (!p ·)).2 })
  | .save => (.done, { w with saved := w.cursor })
  | .restore => (.done, { w with cursor := w.saved })

/-- The move that a call makes; the other calls only look back. -/
def Call.move? : Call → Option Move
  | .peek => some .peek
  | .bump => some .bump
  | .eat expected => some (.eat expected)
  | .eatWhile set => some (.eatWhile (set.contains ·))
  | .eatUntil set => some (.eatUntil (set.contains ·))
  | .matched _ => none
  | .anchor => none
  | .save => some .save
  | .restore => some .restore

/-- A call that makes a move does not fail. -/
theorem perform_of_move? {call : Call} {m : Move} (h : call.move? = some m) (w : Walk) :
    w.perform call = (.ok (w.move m).1, (w.move m).2) := by
  cases call with
  | matched start => cases h
  | anchor => cases h
  | bump =>
      cases h
      rw [perform, move]
      cases w.cursor.bump? <;> rfl
  | eat expected =>
      cases h
      rw [perform, move]
      cases w.cursor.eat? expected <;> rfl
  | _ =>
      cases h
      rfl

end Walk

/-- The length of the longest initial part whose characters all satisfy `p`. -/
def longest (p : Char → Bool) (row : Text) : Nat :=
  Nat.findGreatest (fun n => (row.take n).all p = true) row.length

theorem le_length_takeWhile {p : Char → Bool} {row : Text} {n : Nat} (hn : n ≤ row.length)
    (hall : (row.take n).all p = true) : n ≤ (row.takeWhile p).length := by
  have hrun : row.takeWhile p = row.take n ++ (row.drop n).takeWhile p := by
    rw [← List.takeWhile_append_of_pos (List.all_eq_true.mp hall), List.take_append_drop]
  calc
    n = (row.take n).length := (List.length_take_of_le hn).symm
    _ ≤ (row.takeWhile p).length := by
      rw [hrun, List.length_append]
      exact Nat.le_add_right _ _

theorem longest_eq (p : Char → Bool) (row : Text) :
    longest p row = (row.takeWhile p).length := by
  rw [longest, Nat.findGreatest_eq_iff]
  refine ⟨(List.takeWhile_prefix p).length_le, ?_, ?_⟩
  · intro _
    rw [← List.prefix_iff_eq_take.mp (List.takeWhile_prefix p)]
    exact List.all_takeWhile
  · intro n hlt hle hall
    exact absurd (le_length_takeWhile hle hall) (Nat.not_le.mpr hlt)

/-- A reader that is only an index into the characters of a text, with the index last saved. -/
structure IndexReader where
  next : Nat
  saved : Nat
  deriving DecidableEq

namespace IndexReader

def start : IndexReader := ⟨0, 0⟩

/-- Passes the longest run of characters that satisfy `p`. -/
def pass (t : Text) (x : IndexReader) (p : Char → Bool) : Walk.Reply × IndexReader :=
  let count := longest p (t.drop x.next)
  (.count count, { x with next := x.next + count })

def move (t : Text) (x : IndexReader) : Move → Walk.Reply × IndexReader
  | .peek => (.char t[x.next]?, x)
  | .bump => (.char t[x.next]?, { x with next := min (x.next + 1) t.length })
  | .eat expected =>
    if t[x.next]? = some expected then (.eaten true, { x with next := x.next + 1 })
    else (.eaten false, x)
  | .eatWhile p => x.pass t p
  | .eatUntil p => x.pass t (!p ·)
  | .save => (.done, { x with saved := x.next })
  | .restore => (.done, { x with next := x.saved })

end IndexReader

/-- The cursor stands before the character of `t` at the index. -/
structure Cursor.StandsAt (c : Cursor) (t : Text) (index : Nat) : Prop where
  text : c.text = t
  index_le : index ≤ t.length
  rest : c.rest = t.drop index
  offset : c.offset = Text.size (t.take index)

namespace Cursor.StandsAt
variable {c : Cursor} {t : Text} {index : Nat}

theorem start (t : Text) : (Cursor.start t).StandsAt t 0 :=
  ⟨rfl, Nat.zero_le _, rfl, rfl⟩

theorem peek? (h : c.StandsAt t index) : c.peek? = t[index]? := by
  rw [Cursor.peek?, h.rest, List.head?_drop]

theorem advance (h : c.StandsAt t index) {n : Nat} (hn : n ≤ (t.drop index).length) :
    (c.advance n).StandsAt t (index + n) := by
  constructor
  · exact h.text
  · have := h.index_le
    rw [List.length_drop] at hn
    omega
  · rw [rest_advance, h.rest, List.drop_drop]
  · rw [offset_advance, h.offset, h.rest, List.take_add, Text.size_append]

/-- What comes before the cursor and what comes after it are the two slices at its offset. -/
theorem slices (h : c.StandsAt t index) :
    t.slice? 0 c.offset = some (t.take index) ∧ t.slice? c.offset t.size = some c.rest := by
  have hsplit : t.take index ++ t.drop index = t := List.take_append_drop index t
  have hsize : t.size = Text.size (t.take index) + Text.size (t.drop index) := by
    rw [← Text.size_append, hsplit]
  rw [h.offset, h.rest, Text.slice?_eq_some_iff, Text.slice?_eq_some_iff]
  refine ⟨⟨[], t.drop index, hsplit.symm, rfl, Nat.zero_add _⟩, ⟨t.take index, [], ?_, rfl, ?_⟩⟩
  · rw [hsplit, List.append_nil]
  · exact hsize.symm

theorem isBoundary (h : c.StandsAt t index) : t.IsBoundary c.offset := by
  rw [h.offset]
  exact Text.isBoundary_size (List.take_prefix index t)

end Cursor.StandsAt

/-- The two cursors of a walk stand at the two indices. -/
structure Walk.StandsAt (w : Walk) (t : Text) (x : IndexReader) : Prop where
  cursor : w.cursor.StandsAt t x.next
  saved : w.saved.StandsAt t x.saved

namespace Walk.StandsAt
variable {w : Walk} {t : Text} {x : IndexReader}

theorem start (t : Text) : (Walk.start t).StandsAt t .start := ⟨.start t, .start t⟩

theorem move_bump (h : w.StandsAt t x) :
    (w.move .bump).1 = (x.move t .bump).1 ∧ (w.move .bump).2.StandsAt t (x.move t .bump).2 := by
  have hpeek := h.cursor.peek?
  have hle := h.cursor.index_le
  cases hnext : t[x.next]? with
  | none =>
      have hlength : t.length ≤ x.next := List.getElem?_eq_none_iff.mp hnext
      have hstay : min (x.next + 1) t.length = x.next := by omega
      simp only [Walk.move, IndexReader.move, Cursor.bump?, hpeek, hnext, Option.map_none, hstay]
      exact ⟨trivial, h⟩
  | some c =>
      have hlength : x.next < t.length := (List.getElem?_eq_some_iff.mp hnext).1
      have hstep : min (x.next + 1) t.length = x.next + 1 := by omega
      simp only [Walk.move, IndexReader.move, Cursor.bump?, hpeek, hnext, Option.map_some, hstep]
      refine ⟨trivial, h.cursor.advance ?_, h.saved⟩
      rw [List.length_drop]
      omega

theorem move_eat (h : w.StandsAt t x) (expected : Char) :
    (w.move (.eat expected)).1 = (x.move t (.eat expected)).1 ∧
      (w.move (.eat expected)).2.StandsAt t (x.move t (.eat expected)).2 := by
  have hpeek := h.cursor.peek?
  by_cases hnext : t[x.next]? = some expected
  · have hlength : x.next < t.length := (List.getElem?_eq_some_iff.mp hnext).1
    simp only [Walk.move, IndexReader.move, Cursor.eat?, hpeek, if_pos hnext]
    refine ⟨trivial, h.cursor.advance ?_, h.saved⟩
    rw [List.length_drop]
    omega
  · simp only [Walk.move, IndexReader.move, Cursor.eat?, hpeek, if_neg hnext]
    exact ⟨trivial, h⟩

/-- The run that a cursor passes is the longest one. -/
theorem eatWhile (h : w.StandsAt t x) (p : Char → Bool) :
    (w.cursor.eatWhile p).1 = longest p (t.drop x.next) ∧
      (w.cursor.eatWhile p).2.StandsAt t (x.next + longest p (t.drop x.next)) := by
  rw [longest_eq, Cursor.eatWhile, h.cursor.rest]
  exact ⟨rfl, h.cursor.advance (List.takeWhile_prefix p).length_le⟩

/-- A walk and an index that stand at the same places answer a move alike, and stand at the same
places after it. -/
theorem move (h : w.StandsAt t x) (m : Move) :
    (w.move m).1 = (x.move t m).1 ∧ (w.move m).2.StandsAt t (x.move t m).2 := by
  cases m with
  | peek => exact ⟨congrArg Reply.char h.cursor.peek?, h⟩
  | bump => exact h.move_bump
  | eat expected => exact h.move_eat expected
  | eatWhile p =>
      obtain ⟨hcount, hcursor⟩ := h.eatWhile p
      exact ⟨congrArg Reply.count hcount, hcursor, h.saved⟩
  | eatUntil p =>
      obtain ⟨hcount, hcursor⟩ := h.eatWhile (!p ·)
      exact ⟨congrArg Reply.count hcount, hcursor, h.saved⟩
  | save => exact ⟨rfl, h.cursor, h.cursor⟩
  | restore => exact ⟨rfl, h.saved, h.saved⟩

/-- The same for any row of moves. -/
theorem run (h : w.StandsAt t x) (moves : List Move) :
    (Move.run Walk.move w moves).1 = (Move.run (IndexReader.move t) x moves).1 ∧
      (Move.run Walk.move w moves).2.StandsAt t (Move.run (IndexReader.move t) x moves).2 := by
  induction moves generalizing w x with
  | nil => exact ⟨rfl, h⟩
  | cons m moves ih =>
      obtain ⟨hreply, hstands⟩ := h.move m
      obtain ⟨hreplies, hlast⟩ := ih hstands
      rw [Move.run_cons, Move.run_cons]
      exact ⟨by rw [hreply, hreplies], hlast⟩

end Walk.StandsAt

/-- Only going back to the saved place moves a cursor backwards. -/
theorem Walk.offset_le_move {m : Move} (hm : m ≠ .restore) (w : Walk) :
    w.cursor.offset ≤ (w.move m).2.cursor.offset := by
  have hadvance : ∀ n, w.cursor.offset ≤ (w.cursor.advance n).offset := fun n =>
    Nat.le_add_right _ _
  cases m with
  | peek => exact Nat.le_refl _
  | bump =>
      rw [move, Cursor.bump?]
      cases w.cursor.peek? with
      | none => exact Nat.le_refl _
      | some c => exact hadvance 1
  | eat expected =>
      rw [move, Cursor.eat?]
      by_cases hnext : w.cursor.peek? = some expected
      · rw [if_pos hnext]
        exact hadvance 1
      · rw [if_neg hnext]
  | eatWhile p => exact hadvance _
  | eatUntil p => exact hadvance _
  | save => exact Nat.le_refl _
  | restore => exact absurd rfl hm

end ParseReport
