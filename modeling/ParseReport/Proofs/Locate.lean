import ParseReport.Position.Location
import ParseReport.Proofs.Lookup

/-!
# Locations of spans

A span is located at the end of the front part that its start is moved down to. The line there
is the last line of the front part with the first line of the rest, so nothing that is sliced on
the way can lie inside a character.
-/

namespace ParseReport

namespace Text

/-- The part up to and with the first `\n`. -/
def firstLine : Text → Text
  | [] => []
  | c :: t => if c = '\n' then [c] else c :: firstLine t

/-- The part after the first `\n`. -/
def laterLines : Text → Text
  | [] => []
  | c :: t => if c = '\n' then t else laterLines t

@[simp] theorem firstLine_append_laterLines (t : Text) : t.firstLine ++ t.laterLines = t := by
  induction t with
  | nil => rfl
  | cons c t ih => by_cases hc : c = '\n' <;> simp [firstLine, laterLines, hc, ih]

/-- The line after the first one starts where that one ends. -/
theorem head?_newlineEnds (offset : Nat) (t : Text) :
    (newlineEnds offset t).head? =
      if '\n' ∈ t then some (offset + t.firstLine.size) else none := by
  induction t generalizing offset with
  | nil => rfl
  | cons c t ih =>
      by_cases hc : c = '\n'
      · simp [newlineEnds, firstLine, hc]
      · rw [newlineEnds, if_neg hc, ih, firstLine, if_neg hc, size_cons, Nat.add_assoc]
        by_cases ht : '\n' ∈ t <;> simp [ht, Ne.symm hc]

theorem firstLine_eq_self {t : Text} (h : '\n' ∉ t) : t.firstLine = t := by
  induction t with
  | nil => rfl
  | cons c t ih =>
      obtain ⟨hc, ht⟩ := not_or.mp (mt List.mem_cons.mpr h)
      rw [firstLine, if_neg (Ne.symm hc), ih ht]

theorem excess_size_append (a b : Text) : excess (a ++ b) a.size = 0 := by
  induction a with
  | nil =>
      cases b with
      | nil => rfl
      | cons c b =>
          have hwide : ¬c.utf8Size ≤ 0 := Nat.not_le.mpr c.utf8Size_pos
          simp [excess, hwide]
  | cons c a ih =>
      have hrest : c.utf8Size + size a - c.utf8Size = size a := by omega
      rw [List.cons_append, size_cons, excess, if_pos (Nat.le_add_right _ _), hrest]
      exact ih

/-- The end of a front part is a character boundary. -/
theorem floor_size_append (a b : Text) : (a ++ b).floor a.size = a.size := by
  rw [floor, excess_size_append, Nat.sub_zero]

end Text

/-- A position exists wherever the text before it is not of the largest size. -/
theorem positionAfter_eq {front : Text} (hsize : front.size < maxOffset) :
    positionAfter front = .ok ⟨front.count '\n' + 1, front.lastLine.length + 1⟩ := by
  have hlines := front.count_newline_le_size
  have hcolumn := Nat.le_trans front.length_lastLine_le front.length_le_size
  rw [positionAfter, ordinal_of_lt (by omega), ordinal_of_lt (by omega)]
  rfl

namespace LineTable

/-- The line after that of a cut starts at the first `\n` behind the cut. -/
theorem lineStart?_next {front back : Text} (hsize : (front ++ back).size ≤ maxOffset) :
    (ofText (front ++ back)).lineStart? (front.count '\n' + 2) =
      if '\n' ∈ back then some (front.size + back.firstLine.size) else none := by
  have hge : front.lineStarts.length ≤ front.count '\n' + 1 := by simp
  have hindex : front.count '\n' + 1 - front.lineStarts.length = 0 := by simp
  rw [ofText_eq hsize, Text.lineStarts_append, lineStart?, if_neg (Nat.succ_ne_zero _),
    Nat.add_succ_sub_one, List.getElem?_toArray, List.getElem?_append_right hge, hindex,
    ← List.head?_eq_getElem?]
  exact Text.head?_newlineEnds _ _

/-- The line on which a cut lies joins the two parts that the cut makes of it. -/
theorem lineText_eq {t front back : Text} (hsize : t.size ≤ maxOffset)
    (ht : t = front ++ back) (hline : front.count '\n' + 1 < maxOffset) :
    (ofText t).lineText t (front.count '\n' + 1) =
      .ok (some (front.lastLine ++ back.firstLine).withoutTerminator) := by
  subst ht
  have htotal : (front ++ back).size = front.size + back.size := Text.size_append _ _
  have hsplit := congrArg Text.size back.firstLine_append_laterLines
  rw [Text.size_append] at hsplit
  have hstart : min front.closedLines.size (front ++ back).size = front.closedLines.size := by
    have := front.size_closedLines_le
    omega
  have hstop : min (((ofText (front ++ back)).lineStart? (front.count '\n' + 2)).getD
      (front ++ back).size) (front ++ back).size = front.size + back.firstLine.size := by
    rw [lineStart?_next hsize]
    by_cases hback : '\n' ∈ back
    · rw [if_pos hback, Option.getD_some]
      omega
    · rw [if_neg hback, Option.getD_none, Text.firstLine_eq_self hback]
      omega
  have hslice : (front ++ back).slice? front.closedLines.size
      (front.size + back.firstLine.size) = some (front.lastLine ++ back.firstLine) := by
    apply Text.slice?_eq_some_iff.mpr
    refine ⟨front.closedLines, back.laterLines, ?_, rfl, ?_⟩
    · calc
        front ++ back = (front.closedLines ++ front.lastLine) ++
            (back.firstLine ++ back.laterLines) := by simp
        _ = front.closedLines ++ (front.lastLine ++ back.firstLine) ++ back.laterLines := by
          simp only [List.append_assoc]
    · rw [Text.size_append, ← Nat.add_assoc, ← Text.size_append,
        Text.closedLines_append_lastLine]
  rw [lineText, lineStart?_count hsize]
  simp only [successor_of_lt hline, bind, Except.bind]
  rw [hstart, hstop, hslice]
  rfl

end LineTable

namespace Location

/-- Where a span is located whose start is moved down to the end of a front part. -/
theorem ofSpan_eq {t front back : Text} {span : Span} (hsize : t.size + 2 ≤ maxOffset)
    (ht : t = front ++ back) (hfloor : t.floor span.start.toNat = front.size) :
    ofSpan t span =
      let excerpt := (front.lastLine ++ back.firstLine).withoutTerminator
      .ok ⟨front.count '\n' + 1, front.lastLine.length + 1, excerpt,
        markerWidth ((span.slice? t).getD []).length excerpt.length
          (front.lastLine.length + 1)⟩ := by
  have hfront : front.size + 2 ≤ maxOffset := by
    rw [ht, Text.size_append] at hsize
    omega
  have hline : front.count '\n' + 1 < maxOffset := by
    have := front.count_newline_le_size
    omega
  rw [ofSpan, LineTable.position_eq (by omega) ht hfloor, positionAfter_eq (by omega)]
  simp only [bind, Except.bind, LineTable.lineText_eq (by omega) ht hline, Option.getD_some]
  rfl

end Location

end ParseReport
