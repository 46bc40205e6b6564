import ParseReport.Proofs.Boundaries
import ParseReport.Proofs.RawLines

/-!
# Markers stay on their lines

Every span of a text that fits has a location, also one that is out of order, past the end or has
an end inside a character. The column passes the excerpt by at most the `\r` that was dropped from
it, and a marker of more than one character ends within the excerpt.
-/

namespace ParseReport

namespace Location

theorem markerWidth_eq_max {marked length column : Nat} (hlength : length ≤ maxOffset) :
    markerWidth marked length column = max 1 (min marked (length - (column - 1))) := by
  unfold markerWidth
  omega

theorem markerWidth_zero (length column : Nat) : markerWidth 0 length column = 1 := by
  unfold markerWidth
  omega

theorem markerWidth_le (marked length : Nat) {column : Nat} (hcolumn : 1 ≤ column) :
    column - 1 + markerWidth marked length column ≤ max length column := by
  unfold markerWidth
  omega

/-- The line that the excerpt shows ends in a `\r` that the excerpt leaves out, and the span starts
behind it. -/
def StartsBehindReturn (l : Location) (t : Text) (span : Span) : Prop :=
  ∃ before after, t = before ++ (l.excerpt ++ '\r' :: after) ∧
    (LineTable.ofText t).lineStart? l.line = some (Text.size before) ∧
    (after = [] ∨ after.head? = some '\n') ∧
    Text.size (before ++ l.excerpt ++ ['\r']) ≤ span.start.toNat

/-- The location is that of the start of the span, on a whole line, and its marker covers the span
as far as it lies on that line. -/
structure StaysOnLine (l : Location) (t : Text) (span : Span) : Prop where
  position : (LineTable.ofText t).position t span.start.toNat = .ok ⟨l.line, l.column⟩
  excerpt : (LineTable.ofText t).lineText t l.line = .ok (some l.excerpt)
  newline_not_mem : '\n' ∉ l.excerpt
  column_pos : 1 ≤ l.column
  column_le : l.column ≤ l.excerpt.length + 2
  column_behind : l.column = l.excerpt.length + 2 → l.StartsBehindReturn t span
  width_pos : 1 ≤ l.width
  width_of_misfits : span.Misfits t → l.width = 1
  width_of_fits : ¬span.Misfits t → ∃ spelled, span.slice? t = some spelled ∧
    l.width = max 1 (min spelled.length (l.excerpt.length - (l.column - 1)))
  width_le : l.column - 1 + l.width ≤ max l.excerpt.length l.column
  width_within : 1 < l.width → l.column - 1 + l.width ≤ l.excerpt.length

/-- The location of a span whose start is moved down to the end of a front part. -/
def ofCut (t front back : Text) (span : Span) : Location :=
  let excerpt := (Text.rawLine front back).dropFinal '\r'
  ⟨front.count '\n' + 1, front.lastLine.length + 1, excerpt,
    markerWidth ((span.slice? t).getD []).length excerpt.length (front.lastLine.length + 1)⟩

section Cut
variable {t front back : Text} {span : Span}

@[simp] theorem column_ofCut :
    (ofCut t front back span).column = front.lastLine.length + 1 := rfl

@[simp] theorem excerpt_ofCut :
    (ofCut t front back span).excerpt = (Text.rawLine front back).dropFinal '\r' := rfl

theorem width_ofCut : (ofCut t front back span).width =
    markerWidth ((span.slice? t).getD []).length (ofCut t front back span).excerpt.length
      (ofCut t front back span).column := rfl

theorem column_ofCut_le :
    (ofCut t front back span).column ≤ (ofCut t front back span).excerpt.length + 2 := by
  have hdropped := (Text.rawLine front back).length_le_length_dropFinal_add_one '\r'
  have hraw : front.lastLine.length ≤ (Text.rawLine front back).length := by
    rw [Text.rawLine, List.length_append]
    exact Nat.le_add_right _ _
  rw [column_ofCut, excerpt_ofCut]
  omega

theorem length_excerpt_ofCut_le (ht : t = front ++ back) :
    (ofCut t front back span).excerpt.length ≤ t.size := by
  have hdrop := (Text.dropFinal_prefix_self (Text.rawLine front back) '\r').length_le
  have hraw := Text.length_rawLine_le front back
  rw [← ht] at hraw
  calc
    (ofCut t front back span).excerpt.length ≤ (Text.rawLine front back).length := hdrop
    _ ≤ t.length := hraw
    _ ≤ t.size := t.length_le_size

/-- Two characters past the excerpt the line has come to its end behind a `\r`. -/
theorem startsBehindReturn_ofCut (hsize : t.size ≤ maxOffset) (ht : t = front ++ back)
    (hfit : front.size ≤ span.start.toNat)
    (hcolumn : (ofCut t front back span).column = (ofCut t front back span).excerpt.length + 2) :
    (ofCut t front back span).StartsBehindReturn t span := by
  rw [column_ofCut, excerpt_ofCut] at hcolumn
  have hdropped := (Text.rawLine front back).length_le_length_dropFinal_add_one '\r'
  have hlength : (Text.rawLine front back).length =
      front.lastLine.length + (back.firstLine.dropFinal '\n').length := List.length_append
  have hnone : back.firstLine.dropFinal '\n' = [] := List.eq_nil_of_length_eq_zero (by omega)
  have hraw : Text.rawLine front back = front.lastLine := by
    rw [Text.rawLine, hnone, List.append_nil]
  have hline : front.lastLine = (ofCut t front back span).excerpt ++ ['\r'] := by
    rw [excerpt_ofCut, ← Text.eq_dropFinal_append (by omega), hraw]
  have hfront : front.closedLines ++ (ofCut t front back span).excerpt ++ ['\r'] = front := by
    rw [List.append_assoc, ← hline, Text.closedLines_append_lastLine]
  refine ⟨front.closedLines, back, ?_, ?_, Text.cases_of_dropFinal_firstLine hnone, ?_⟩
  · calc
      t = front ++ back := ht
      _ = front.closedLines ++ (ofCut t front back span).excerpt ++ ['\r'] ++ back := by
        rw [hfront]
      _ = front.closedLines ++ ((ofCut t front back span).excerpt ++ '\r' :: back) := by
        simp only [List.append_assoc, List.singleton_append]
  · subst ht
    exact LineTable.lineStart?_count hsize
  · rwa [hfront]

/-- The location of a cut stays on the line of the cut. -/
theorem staysOnLine_ofCut (hfits : t.size + 2 ≤ maxOffset) (ht : t = front ++ back)
    (hfloor : t.floor span.start.toNat = front.size) :
    (ofCut t front back span).StaysOnLine t span := by
  have hfront : front.size ≤ t.size := Text.size_le_of_prefix ⟨back, ht.symm⟩
  have hcount := front.count_newline_le_size
  have hlength : (ofCut t front back span).excerpt.length ≤ maxOffset :=
    (length_excerpt_ofCut_le ht).trans (by omega)
  have hcolumn : 1 ≤ (ofCut t front back span).column := Nat.le_add_left 1 _
  have hmarker := markerWidth_le ((span.slice? t).getD []).length
    (ofCut t front back span).excerpt.length hcolumn
  rw [← width_ofCut] at hmarker
  constructor
  case position =>
    rw [LineTable.position_eq (by omega) ht hfloor, positionAfter_eq (by omega)]
    rfl
  case excerpt =>
    change (LineTable.ofText t).lineText t (front.count '\n' + 1) = _
    rw [LineTable.lineText_eq (by omega) ht (by omega), Text.withoutTerminator_cut, excerpt_ofCut]
  case newline_not_mem =>
    exact fun hmem => Text.newline_not_mem_rawLine front back
      ((Text.dropFinal_prefix_self _ _).subset hmem)
  case column_pos => exact hcolumn
  case column_le => exact column_ofCut_le
  case column_behind =>
    exact startsBehindReturn_ofCut (by omega) ht (hfloor ▸ Text.floor_le _ _)
  case width_pos => exact Nat.le_max_left 1 _
  case width_of_misfits =>
    intro hmisfits
    rw [width_ofCut, Span.slice?_eq_none_iff.mpr hmisfits]
    exact markerWidth_zero _ _
  case width_of_fits =>
    intro hfitting
    rw [← Span.slice?_eq_none_iff, ← ne_eq, Option.ne_none_iff_exists'] at hfitting
    obtain ⟨spelled, hspelled⟩ := hfitting
    refine ⟨spelled, hspelled, ?_⟩
    rw [width_ofCut, hspelled, Option.getD_some, markerWidth_eq_max hlength]
  case width_le => exact hmarker
  case width_within =>
    intro hwide
    omega

end Cut

end Location

/-- Every span has a location, and it stays on one line of the text. -/
theorem locate_stays_on_line (t : Text) (hfits : t.size + 2 ≤ maxOffset) (span : Span) :
    ∃ l, (Anchor.attached t span).locate = .ok l ∧ l.StaysOnLine t span := by
  obtain ⟨front, back, ht, hfloor, -, -⟩ := t.exists_floor span.start.toNat
  refine ⟨.ofCut t front back span, ?_, Location.staysOnLine_ofCut hfits ht hfloor⟩
  rw [Anchor.locate, Location.ofSpan_eq hfits ht hfloor, Text.withoutTerminator_cut]
  rfl

/-- Three spans of a line that ends in `\r\n`: one reaches over the line end, one starts at it, and
one is out of order. -/
theorem locate_stays_before_line_end :
    let t : Text := "aβγ\r\nδ".toList
    t.size + 2 ≤ maxOffset ∧
      (¬(⟨1, 7⟩ : Span).Misfits t ∧ ∃ l, (Anchor.attached t ⟨1, 7⟩).locate = .ok l ∧
        l.width = 2 ∧ l.column - 1 + l.width ≤ l.excerpt.length) ∧
      (∃ l, (Anchor.attached t ⟨6, 6⟩).locate = .ok l ∧ l.column = l.excerpt.length + 2 ∧
        l.StartsBehindReturn t ⟨6, 6⟩) ∧
      ((⟨2, 1⟩ : Span).Misfits t ∧
        ∃ l, (Anchor.attached t ⟨2, 1⟩).locate = .ok l ∧ l.width = 1) := by
  intro t
  have hfits : t.size + 2 ≤ maxOffset := by decide
  have hover : (Anchor.attached t ⟨1, 7⟩).locate = .ok ⟨1, 2, "aβγ".toList, 2⟩ := by decide +kernel
  have hbehind : (Anchor.attached t ⟨6, 6⟩).locate = .ok ⟨1, 5, "aβγ".toList, 1⟩ := by
    decide +kernel
  have hslice : (⟨1, 7⟩ : Span).slice? t ≠ none := by decide
  have hmisfits : (⟨2, 1⟩ : Span).Misfits t := .inl (by decide)
  refine ⟨hfits, ⟨mt Span.slice?_eq_none_iff.mpr hslice, ?_⟩, ?_, hmisfits, ?_⟩
  · obtain ⟨l, hl, hstays⟩ := locate_stays_on_line t hfits ⟨1, 7⟩
    obtain rfl := Except.ok.inj (hl.symm.trans hover)
    exact ⟨_, hover, rfl, hstays.width_within (by decide)⟩
  · obtain ⟨l, hl, hstays⟩ := locate_stays_on_line t hfits ⟨6, 6⟩
    obtain rfl := Except.ok.inj (hl.symm.trans hbehind)
    exact ⟨_, hbehind, rfl, hstays.column_behind rfl⟩
  · obtain ⟨l, hl, hstays⟩ := locate_stays_on_line t hfits ⟨2, 1⟩
    exact ⟨l, hl, hstays.width_of_misfits hmisfits⟩

end ParseReport
