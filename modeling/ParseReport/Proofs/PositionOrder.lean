import ParseReport.Proofs.Boundaries
import ParseReport.Proofs.RawLines
import Mathlib.Data.Prod.Lex

/-!
# Positions in order

Line and column lead back to the boundary that an offset is moved down to: the line starts at 0 or
after a `\n`, and from there the column counts the characters, none of them a `\n`. So a front part
of a text has a smaller position than any longer one, and lookups keep the order of the offsets.
-/

namespace ParseReport

namespace Position

/-- Positions compare by their lines, and on one line by their columns. -/
def rank (p : Position) : Nat ×ₗ Nat := toLex (p.line, p.column)

/-- The position after a front part of a text. -/
def after (front : Text) : Position := ⟨front.count '\n' + 1, front.lastLine.length + 1⟩

/-- The offset of `t` can be read off the position: its line starts at `start`, and the column
passes the characters from there up to the offset. -/
structure LeadsTo (p : Position) (t : Text) (start offset : Nat) : Prop where
  lineStart : (LineTable.ofText t).lineStart? p.line = some start
  start_le : start ≤ offset
  begins : start = 0 ∨ ∃ before, before ++ ['\n'] <+: t ∧ Text.size (before ++ ['\n']) = start
  sameLine : ∃ passed, t.slice? start offset = some passed ∧ '\n' ∉ passed ∧
    passed.length + 1 = p.column
  column : ∃ rest, t.after? start = some rest ∧
    start + Text.size (rest.take (p.column - 1)) = offset

/-- More text has a larger position. -/
theorem rank_after_append (front : Text) {more : Text} (hmore : more ≠ []) :
    (after front).rank < (after (front ++ more)).rank := by
  rw [rank, rank, Prod.Lex.toLex_lt_toLex]
  by_cases hline : '\n' ∈ more
  · have hcount : 0 < more.count '\n' := List.count_pos_iff.mpr hline
    refine .inl ?_
    simp only [after, List.count_append]
    omega
  · have hcount : more.count '\n' = 0 := List.count_eq_zero.mpr hline
    have hlength : 0 < more.length := List.length_pos_iff.mpr hmore
    refine .inr ⟨?_, ?_⟩
    · simp only [after, List.count_append, hcount, Nat.add_zero]
    · simp only [after, Text.lastLine_append, if_neg hline, List.length_append]
      omega

theorem rank_after_le {front longer : Text} (h : front <+: longer) :
    (after front).rank ≤ (after longer).rank := by
  obtain ⟨more, rfl⟩ := h
  by_cases hmore : more = []
  · rw [hmore, List.append_nil]
  · exact (rank_after_append front hmore).le

theorem leadsTo_after {t front : Text} (hsize : t.size ≤ maxOffset) (hfront : front <+: t) :
    (after front).LeadsTo t front.closedLines.size front.size := by
  obtain ⟨back, rfl⟩ := hfront
  have hsplit := front.closedLines_append_lastLine_append back
  have hends := front.size_closedLines_add_lastLine
  constructor
  · exact LineTable.lineStart?_count hsize
  · exact front.size_closedLines_le
  · rcases front.closedLines_cases with hnone | ⟨before, hbefore⟩
    · exact .inl (congrArg Text.size hnone)
    · refine .inr ⟨before, ?_, congrArg Text.size hbefore.symm⟩
      rw [← hbefore, ← hsplit]
      exact List.prefix_append _ _
  · refine ⟨front.lastLine, Text.slice?_eq_some_iff.mpr ?_, front.newline_not_mem_lastLine, rfl⟩
    exact ⟨front.closedLines, back, by rw [Text.closedLines_append_lastLine], rfl, hends⟩
  · refine ⟨front.lastLine ++ back, Text.after?_eq_some_iff.mpr ⟨_, hsplit.symm, rfl⟩, ?_⟩
    rw [after, Nat.add_sub_cancel, List.take_left]
    exact hends

end Position

namespace LineTable
variable {t front : Text} {m n offset : Nat} {p q : Position}

/-- A lookup finds the position after the front part that the floor of the offset ends. -/
theorem position_eq_after (hfits : t.size + 2 ≤ maxOffset) (hfront : front <+: t)
    (hfloor : t.floor offset = front.size) :
    (ofText t).position t offset = .ok (.after front) := by
  have hsize := Text.size_le_of_prefix hfront
  obtain ⟨back, ht⟩ := hfront
  rw [position_eq (by omega) ht.symm hfloor, positionAfter_eq (by omega)]
  rfl

theorem exists_position_after (hfits : t.size + 2 ≤ maxOffset) (offset : Nat) :
    ∃ front : Text, front <+: t ∧ front.size = t.floor offset ∧
      (ofText t).position t offset = .ok (.after front) := by
  obtain ⟨front, hfront, hsize⟩ := t.isBoundary_floor offset
  exact ⟨front, hfront, hsize, position_eq_after hfits hfront hsize.symm⟩

theorem exists_eq_after (hfits : t.size + 2 ≤ maxOffset)
    (h : (ofText t).position t offset = .ok p) :
    ∃ front : Text, front <+: t ∧ front.size = t.floor offset ∧ p = .after front := by
  obtain ⟨front, hfront, hsize, hposition⟩ := exists_position_after hfits offset
  exact ⟨front, hfront, hsize, Except.ok.inj (h.symm.trans hposition)⟩

/-- Lookups keep the order of offsets. -/
theorem rank_le_of_le (hfits : t.size + 2 ≤ maxOffset)
    (hp : (ofText t).position t m = .ok p) (hq : (ofText t).position t n = .ok q) (h : m ≤ n) :
    p.rank ≤ q.rank := by
  obtain ⟨front, hfront, hm, rfl⟩ := exists_eq_after hfits hp
  obtain ⟨longer, hlonger, hn, rfl⟩ := exists_eq_after hfits hq
  apply Position.rank_after_le
  apply Text.prefix_of_size_le hfront hlonger
  rw [hm, hn]
  exact t.floor_mono h

/-- Of two boundaries the later one has the larger position. -/
theorem rank_lt_of_lt (hfits : t.size + 2 ≤ maxOffset)
    (hp : (ofText t).position t m = .ok p) (hq : (ofText t).position t n = .ok q)
    (hm : t.IsBoundary m) (hn : t.IsBoundary n) (h : m < n) : p.rank < q.rank := by
  obtain ⟨front, hfront, hsize, rfl⟩ := exists_eq_after hfits hp
  obtain ⟨longer, hlonger, hsize', rfl⟩ := exists_eq_after hfits hq
  rw [hm.floor_eq] at hsize
  rw [hn.floor_eq] at hsize'
  obtain ⟨more, rfl⟩ := Text.prefix_of_size_le hfront hlonger (by omega)
  apply Position.rank_after_append
  rintro rfl
  rw [List.append_nil] at hsize'
  omega

end LineTable

/-- The position of an offset is that of the greatest boundary `o` that is not above it, and leads
back to `o`. Positions grow with the offsets, and strictly from one boundary to the next. -/
theorem position_identifies_boundary (t : Text) (hfits : t.size + 2 ≤ maxOffset)
    (offset : UInt32) :
    ∃ o p, IsGreatest {n | t.IsBoundary n ∧ n ≤ min offset.toNat t.size} o ∧
      (LineTable.ofText t).position t offset.toNat = .ok p ∧
      (LineTable.ofText t).position t o = .ok p ∧
      (∃ start, p.LeadsTo t start o) ∧
      ∀ (offset' : UInt32) (p' : Position),
        (LineTable.ofText t).position t offset'.toNat = .ok p' →
          (offset ≤ offset' → p.rank ≤ p'.rank) ∧
          (t.IsBoundary offset.toNat → t.IsBoundary offset'.toNat →
            (offset < offset' ↔ p.rank < p'.rank)) := by
  obtain ⟨front, hfront, hsize, hposition⟩ := LineTable.exists_position_after hfits offset.toNat
  have hfloor : (LineTable.ofText t).position t (t.floor offset.toNat) = .ok (.after front) :=
    LineTable.position_eq_after hfits hfront ((t.isBoundary_floor _).floor_eq.trans hsize.symm)
  refine ⟨t.floor offset.toNat, .after front, t.isGreatest_floor_min _, hposition, hfloor,
    ⟨_, hsize ▸ Position.leadsTo_after (by omega) hfront⟩, ?_⟩
  intro offset' p' hposition'
  refine ⟨LineTable.rank_le_of_le hfits hposition hposition', fun hboundary hboundary' => ?_⟩
  constructor
  · exact LineTable.rank_lt_of_lt hfits hposition hposition' hboundary hboundary'
  · intro hrank
    by_contra hle
    exact hrank.not_ge
      (LineTable.rank_le_of_le hfits hposition' hposition (UInt32.not_lt.mp hle))

/-- Offset 7 lies inside the last character, and the boundaries 3 and 4 enclose a `\n`. -/
theorem position_identifies_around_newline :
    let t : Text := ['a', 'β', '\n', 'γ', 'δ']
    (t.size + 2 ≤ maxOffset ∧ t.IsBoundary 3 ∧ t.IsBoundary 4) ∧
      (IsGreatest {n | t.IsBoundary n ∧ n ≤ min 7 t.size} 6 ∧
        ∃ start, (⟨2, 2⟩ : Position).LeadsTo t start 6) ∧
      (LineTable.ofText t).position t 3 = .ok ⟨1, 3⟩ ∧
      (LineTable.ofText t).position t 4 = .ok ⟨2, 1⟩ ∧
      (⟨1, 3⟩ : Position).rank < (⟨2, 1⟩ : Position).rank := by
  intro t
  have hfits : t.size + 2 ≤ maxOffset := by decide
  have hthree : t.IsBoundary 3 := by decide
  have hfour : t.IsBoundary 4 := by decide
  have hline : (LineTable.ofText t).position t 4 = .ok ⟨2, 1⟩ := by decide +kernel
  refine ⟨⟨hfits, hthree, hfour⟩, ?_, ?_⟩
  · obtain ⟨o, p, hgreatest, hposition, -, hleads, -⟩ := position_identifies_boundary t hfits 7
    have hfloor : o = t.floor 7 := hgreatest.unique (t.isGreatest_floor_min 7)
    have hsix : t.floor 7 = 6 := by decide
    have hfound : (LineTable.ofText t).position t 7 = .ok ⟨2, 2⟩ := by decide +kernel
    obtain rfl := Except.ok.inj (hposition.symm.trans hfound)
    rw [hfloor, hsix] at hgreatest hleads
    exact ⟨hgreatest, hleads⟩
  · obtain ⟨o, p, -, hposition, -, -, horder⟩ := position_identifies_boundary t hfits 3
    have hfound : (LineTable.ofText t).position t 3 = .ok ⟨1, 3⟩ := by decide +kernel
    obtain rfl := Except.ok.inj (hposition.symm.trans hfound)
    obtain ⟨-, hstrict⟩ := horder 4 ⟨2, 1⟩ hline
    exact ⟨hfound, hline, (hstrict hthree hfour).mp (by decide)⟩

end ParseReport
