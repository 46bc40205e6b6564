import ParseReport.Position.Cursor

/-!
# Walks

A walk is a cursor with a remembered place to go back to. The calls on it are
data, so that a whole walk can be stated and replayed.
-/

namespace ParseReport

/-- A cursor and the place last saved. -/
structure Walk where
  cursor : Cursor
  saved : Cursor

namespace Walk

/-- The walk at the start of a text, which is also its first saved place. -/
def start (t : Text) : Walk := ⟨.start t, .start t⟩

inductive Call
  | peek
  | bump
  | eat (expected : Char)
  /-- Passes characters that occur in `set`. -/
  | eatWhile (set : Text)
  /-- Passes characters that do not occur in `set`. -/
  | eatUntil (set : Text)
  | matched (start : Nat)
  | anchor
  | save
  | restore
  deriving DecidableEq, Repr

inductive Reply
  | char (next : Option Char)
  | eaten (eaten : Bool)
  | count (count : Nat)
  | matched (stretch : Match)
  | anchor (place : Anchor)
  | done
  deriving DecidableEq, Repr

/-- Answers one call. A call that fails leaves the walk where it is. -/
def perform (w : Walk) : Call → Except SpanError Reply × Walk
  | .peek => (.ok (.char w.cursor.peek?), w)
  | .bump =>
    match w.cursor.bump? with
    | none => (.ok (.char none), w)
    | some (c, cursor) => (.ok (.char (some c)), { w with cursor })
  | .eat expected =>
    match w.cursor.eat? expected with
    | none => (.ok (.eaten false), w)
    | some cursor => (.ok (.eaten true), { w with cursor })
  | .eatWhile set =>
    let (count, cursor) := w.cursor.eatWhile (set.contains ·)
    (.ok (.count count), { w with cursor })
  | .eatUntil set =>
    let (count, cursor) := w.cursor.eatWhile (!set.contains ·)
    (.ok (.count count), { w with cursor })
  | .matched start => ((w.cursor.matched start).map .matched, w)
  | .anchor => (.ok (.anchor w.cursor.anchor), w)
  | .save => (.ok .done, { w with saved := w.cursor })
  | .restore => (.ok .done, { w with cursor := w.saved })

/-- Answers the calls in order; each reply comes with the walk after it. -/
def run : Walk → List Call → List (Except SpanError Reply × Walk)
  | _, [] => []
  | w, call :: calls =>
    let answer := w.perform call
    answer :: answer.2.run calls

end Walk

end ParseReport
