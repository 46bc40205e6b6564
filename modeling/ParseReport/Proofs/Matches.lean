import ParseReport.Proofs.Anchors
import ParseReport.Proofs.CharacterIndex
import ParseReport.Proofs.ScanActs

/-!
# What a match holds

A match runs from any start up to a cursor, so after going back its start can lie behind its stop,
and it can lie inside a character. Only then does the match spell nothing. From a place where the
cursor stood, with no going back since, the match spells what was consumed.
-/

namespace ParseReport

/-- The cursor `next` stands in the text of `c` directly behind `part`, which comes next after `c`. -/
structure Cursor.Passes (c : Cursor) (part : Text) (next : Cursor) : Prop where
  text : next.text = c.text
  rest : c.rest = part ++ next.rest
  offset : next.offset = c.offset + part.size

namespace Cursor.Passes
variable {c next last : Cursor} {part more : Text}

theorem refl (c : Cursor) : c.Passes [] c := ⟨rfl, rfl, rfl⟩

theorem trans (h : c.Passes part next) (h' : next.Passes more last) :
    c.Passes (part ++ more) last := by
  refine ⟨h'.text.trans h.text, ?_, ?_⟩
  · rw [h.rest, h'.rest, List.append_assoc]
  · rw [h'.offset, h.offset, Text.size_append, Nat.add_assoc]

theorem advance (c : Cursor) (n : Nat) : c.Passes (c.rest.take n) (c.advance n) :=
  ⟨rfl, (List.take_append_drop n c.rest).symm, rfl⟩

/-- What was passed is the slice between the two cursors. -/
theorem slice?_eq (h : c.Passes part next) :
    c.text.slice? c.offset next.offset = some part := by
  obtain ⟨before, htext, hsize⟩ := Text.after?_eq_some_iff.mp c.after?_offset
  refine Text.slice?_eq_some_iff.mpr ⟨before, next.rest, ?_, hsize, h.offset.symm⟩
  rw [htext, h.rest, List.append_assoc]

end Cursor.Passes

theorem Cursor.passes_advance_one {c : Cursor} {ch : Char} (h : c.peek? = some ch) :
    c.Passes [ch] (c.advance 1) := by
  obtain ⟨rest, hrest⟩ := List.head?_eq_some_iff.mp h
  have hadvance := Passes.advance c 1
  rwa [hrest] at hadvance

/-- A run of characters is passed as a whole. -/
theorem Cursor.passes_eatWhile (c : Cursor) (p : Char → Bool) :
    c.Passes (c.rest.takeWhile p) (c.eatWhile p).2 := by
  have hrun := List.prefix_iff_eq_take.mp (List.takeWhile_prefix (l := c.rest) p)
  rw [hrun]
  exact .advance c _

namespace Walk

/-- The characters that a move passes. -/
def passed (w : Walk) : Move → Text
  | .peek => []
  | .bump => w.cursor.peek?.toList
  | .eat expected => if w.cursor.peek? = some expected then [expected] else []
  | .eatWhile p => w.cursor.rest.takeWhile p
  | .eatUntil p => w.cursor.rest.takeWhile (!p ·)
  | .save => []
  | .restore => []

/-- The characters that moves in order pass. -/
def consumed (w : Walk) : List Move → Text
  | [] => []
  | m :: moves => w.passed m ++ (w.move m).2.consumed moves

theorem passes_move (w : Walk) {m : Move} (hm : m ≠ .restore) :
    w.cursor.Passes (w.passed m) (w.move m).2.cursor := by
  cases m with
  | peek => exact .refl _
  | bump =>
      rw [passed, move, Cursor.bump?]
      cases hnext : w.cursor.peek? with
      | none => exact .refl _
      | some c => exact Cursor.passes_advance_one hnext
  | eat expected =>
      rw [passed, move, Cursor.eat?]
      by_cases hnext : w.cursor.peek? = some expected
      · rw [if_pos hnext, if_pos hnext]
        exact Cursor.passes_advance_one hnext
      · rw [if_neg hnext, if_neg hnext]
        exact .refl _
  | eatWhile p => exact w.cursor.passes_eatWhile p
  | eatUntil p => exact w.cursor.passes_eatWhile (!p ·)
  | save => exact .refl _
  | restore => exact absurd rfl hm

/-- Moves that do not go back pass what they consume. -/
theorem passes_run (w : Walk) {moves : List Move} (h : .restore ∉ moves) :
    w.cursor.Passes (w.consumed moves) (Move.run Walk.move w moves).2.cursor := by
  induction moves generalizing w with
  | nil => exact .refl _
  | cons m moves ih =>
      obtain ⟨hm, hmoves⟩ := not_or.mp (mt List.mem_cons.mpr h)
      exact (w.passes_move (Ne.symm hm)).trans (ih _ hmoves)

end Walk

namespace Cursor
variable {c : Cursor} {start : Nat}

theorem matched_eq_error_iff (hsize : c.offset ≤ maxOffset) {error : SpanError} :
    c.matched start = .error error ↔ maxOffset < start ∧ error = .startTooLarge start := by
  rw [matched, Span.ofRange]
  by_cases hlarge : maxOffset < start
  · rw [if_pos hlarge]
    constructor
    · rintro ⟨⟩
      exact ⟨hlarge, rfl⟩
    · rintro ⟨-, rfl⟩
      rfl
  · rw [if_neg hlarge, if_neg (Nat.not_lt.mpr hsize)]
    exact iff_of_false (by simp [Except.map]) (fun h => hlarge h.1)

theorem matched_eq_ok (hsize : c.offset ≤ maxOffset) (hstart : start ≤ maxOffset) :
    c.matched start = .ok ⟨c.text, ⟨start.toUInt32, c.offset.toUInt32⟩⟩ := by
  rw [matched, Span.ofRange, if_neg (Nat.not_lt.mpr hstart), if_neg (Nat.not_lt.mpr hsize)]
  rfl

end Cursor

namespace Match

/-- The match is of the stretch of `t` between the offsets. It spells that stretch, unless the
stretch is out of order or starts inside a character, and it is located in any case. -/
structure Spans (m : Match) (t : Text) (start stop : Nat) : Prop where
  text : m.text = t
  start_eq : m.span.start.toNat = start
  stop_eq : m.span.stop.toNat = stop
  fails_iff : ∀ fault, m.spelling = .error fault ↔
    fault = .slice ∧ (stop < start ∨ ¬t.IsBoundary start)
  spells_iff : ∀ part, m.spelling = .ok part ↔ t.slice? start stop = some part
  located : ∃ location, m.anchor.locate = .ok location

theorem spelling_eq (m : Match) :
    m.spelling = (m.span.slice? m.text).elim (.error .slice) .ok := by
  rw [spelling]
  cases m.span.slice? m.text <;> rfl

/-- Only the start of a match can keep it from spelling anything. -/
theorem spans_of_boundary {m : Match} {t : Text} {start stop : Nat} (hfits : t.size + 2 ≤ maxOffset)
    (htext : m.text = t) (hstart : m.span.start.toNat = start) (hstop : m.span.stop.toNat = stop)
    (hboundary : t.IsBoundary stop) : m.Spans t start stop := by
  have hspelling : m.spelling = (t.slice? start stop).elim (.error .slice) .ok := by
    rw [spelling_eq, Span.slice?, htext, hstart, hstop]
  constructor
  case text => exact htext
  case start_eq => exact hstart
  case stop_eq => exact hstop
  case fails_iff =>
    intro fault
    rw [hspelling, Text.elim_eq_error_iff, Text.slice?_eq_none_iff, and_iff_left hboundary,
      not_and_or, Nat.not_le]
  case spells_iff =>
    intro part
    rw [hspelling]
    cases t.slice? start stop with
    | none => simp
    | some slice =>
        rw [Option.elim_some, Except.ok.injEq, Option.some.injEq]
  case located =>
    obtain ⟨location, hlocation, -⟩ := Location.exists_ofSpan (htext ▸ hfits) m.span
    exact ⟨location, hlocation⟩

end Match

theorem Cursor.isBoundary_offset (c : Cursor) : c.text.IsBoundary c.offset := by
  rw [Text.isBoundary_iff_isSome_after?, c.after?_offset]
  rfl

theorem Cursor.exists_matched {c : Cursor} {start : Nat} (hfits : c.text.size + 2 ≤ maxOffset)
    (hstart : start ≤ maxOffset) :
    ∃ m, c.matched start = .ok m ∧ m.Spans c.text start c.offset := by
  have hsize : c.offset ≤ maxOffset := c.isBoundary_offset.le_size.trans (by omega)
  exact ⟨_, matched_eq_ok hsize hstart, Match.spans_of_boundary hfits rfl (toNat_toUInt32 hstart)
    (toNat_toUInt32 hsize) c.isBoundary_offset⟩

/-- A cursor makes a match from any start that fits in 32 bits, whatever was done before. The match
spells nothing only if its start lies behind the cursor or inside a character. So it spells what was
consumed since the cursor stood at its start, unless the cursor went back in between. -/
theorem match_fails_iff (t : Text) (hfits : t.size + 2 ≤ maxOffset) (moves : List Move) :
    let walk := (Move.run Walk.move (.start t) moves).2
    let cursor := walk.cursor
    (∀ start error, cursor.matched start = .error error ↔
      maxOffset < start ∧ error = .startTooLarge start) ∧
    (∀ start ≤ maxOffset, ∃ m, cursor.matched start = .ok m ∧ m.Spans t start cursor.offset) ∧
    ∀ since, Move.restore ∉ since →
      let later := (Move.run Walk.move walk since).2.cursor
      cursor.rest = walk.consumed since ++ later.rest ∧
        ∃ m, later.matched cursor.offset = .ok m ∧ m.spelling = .ok (walk.consumed since) ∧
          m.Spans t cursor.offset later.offset := by
  intro walk cursor
  have htext : cursor.text = t := ((Walk.StandsAt.start t).run moves).2.cursor.text
  have hboundary : t.IsBoundary cursor.offset := htext ▸ cursor.isBoundary_offset
  have hsize : cursor.offset ≤ maxOffset := hboundary.le_size.trans (by omega)
  refine ⟨fun start error => Cursor.matched_eq_error_iff hsize, ?_, ?_⟩
  · intro start hstart
    exact htext ▸ Cursor.exists_matched (htext.symm ▸ hfits) hstart
  · intro since hsince later
    have hpasses : cursor.Passes (walk.consumed since) later := walk.passes_run hsince
    have hlater : later.text = t := hpasses.text.trans htext
    obtain ⟨m, hm, hspans⟩ := Cursor.exists_matched (hlater.symm ▸ hfits) hsize
    have hslice := hpasses.slice?_eq
    rw [htext] at hslice
    rw [hlater] at hspans
    exact ⟨hpasses.rest, m, hm, (hspans.spells_iff _).mpr hslice, hspans⟩

/-- After going back from 5 to 3, a match from 5 is out of order, one from 2 starts inside a
character, and one from 1 spells that character. From 3 on, two moves consume the rest. -/
theorem match_fails_behind_cursor :
    let t : Text := "aβγδ".toList
    let moves : List Move := [.bump, .bump, .save, .bump, .restore]
    let walk := (Move.run Walk.move (.start t) moves).2
    let since : List Move := [.eat 'γ', .eatWhile (· = 'δ')]
    let later := (Move.run Walk.move walk since).2.cursor
    (t.size + 2 ≤ maxOffset ∧ walk.cursor.offset = 3 ∧ Move.restore ∉ since) ∧
      (5 ≤ maxOffset ∧ ∃ m, walk.cursor.matched 5 = .ok m ∧ m.spelling = .error .slice ∧
        ∃ location, m.anchor.locate = .ok location) ∧
      (∃ m, walk.cursor.matched 2 = .ok m ∧ m.spelling = .error .slice) ∧
      (∃ m, walk.cursor.matched 1 = .ok m ∧ m.spelling = .ok ['β']) ∧
      walk.cursor.matched 0x100000000 = .error (.startTooLarge 0x100000000) ∧
      ∃ m, later.matched walk.cursor.offset = .ok m ∧ m.spelling = .ok ['γ', 'δ'] := by
  intro t moves walk since later
  have hfits : t.size + 2 ≤ maxOffset := by decide
  have hoffset : walk.cursor.offset = 3 := by decide
  have hsince : Move.restore ∉ since := by simp [since]
  obtain ⟨herror, hmatch, hconsumed⟩ := match_fails_iff t hfits moves
  have hbehind : (5 : Nat) ≤ maxOffset := by decide
  refine ⟨⟨hfits, hoffset, hsince⟩, ⟨hbehind, ?_⟩, ?_, ?_, (herror _ _).mpr ⟨by decide, rfl⟩, ?_⟩
  · obtain ⟨m, hm, hspans⟩ := hmatch 5 hbehind
    exact ⟨m, hm, (hspans.fails_iff _).mpr ⟨rfl, .inl (by decide)⟩, hspans.located⟩
  · obtain ⟨m, hm, hspans⟩ := hmatch 2 (by decide)
    exact ⟨m, hm, (hspans.fails_iff _).mpr ⟨rfl, .inr (by decide)⟩⟩
  · obtain ⟨m, hm, hspans⟩ := hmatch 1 (by decide)
    exact ⟨m, hm, (hspans.spells_iff _).mpr (by decide)⟩
  · obtain ⟨-, m, hm, hspelling, -⟩ := hconsumed since hsince
    exact ⟨m, hm, hspelling⟩

end ParseReport
