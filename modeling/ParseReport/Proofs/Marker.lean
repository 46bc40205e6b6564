import ParseReport.Proofs.Boundaries
import ParseReport.Proofs.Overflow
import ParseReport.Proofs.RawLines
import ParseReport.Proofs.ReportLines

/-!
# The marker under an excerpt

The last two lines of an entry with a location have a bar at the same place. Behind it stand the
excerpt and, under it, the margin and the marker. The margin is as long as what the excerpt has
before the column and has its tabs in the same places, so a stretch of one line is found right above
the marker that its span gives.
-/

namespace ParseReport

namespace Text

theorem firstLine_prefix_self (t : Text) : t.firstLine <+: t :=
  ⟨t.laterLines, t.firstLine_append_laterLines⟩

/-- Lines that are put behind others are the last lines of the text. -/
theorem exists_splitOn_intercalate {later : List Text} (hsome : later ≠ [])
    (hlater : ∀ row ∈ later, '\n' ∉ row) (first : List Text) :
    ∃ earlier, (List.intercalate ['\n'] (first ++ later)).splitOn '\n' = earlier ++ later := by
  induction first with
  | nil => exact ⟨[], List.splitOn_intercalate '\n' hlater hsome⟩
  | cons row first ih =>
      obtain ⟨earlier, hearlier⟩ := ih
      have hmore : first ++ later ≠ [] := List.append_ne_nil_of_right_ne_nil first hsome
      refine ⟨row.splitOn '\n' ++ earlier, ?_⟩
      rw [List.cons_append, List.intercalate_cons_of_ne_nil hmore, List.append_assoc,
        List.singleton_append, List.splitOn_append_cons_self, hearlier, List.append_assoc]

end Text

section Lines
variable {t spelled : Text} {span : Span}

/-- The span holds the characters `spelled`, at least one, and lies within the excerpt of a line. -/
def Span.WithinLine (span : Span) (t spelled : Text) : Prop :=
  span.slice? t = some spelled ∧ spelled ≠ [] ∧
    ∃ line start excerpt, (LineTable.ofText t).lineStart? line = some start ∧
      (LineTable.ofText t).lineText t line = .ok (some excerpt) ∧
      start ≤ span.start.toNat ∧ span.stop.toNat ≤ start + excerpt.size

/-- Before the excerpt of a line stand the lines before it. -/
theorem LineTable.exists_front_of_line (hfits : t.size + 2 ≤ maxOffset) {line start : Nat}
    {excerpt : Text} (hstart : (ofText t).lineStart? line = some start)
    (hexcerpt : (ofText t).lineText t line = .ok (some excerpt)) :
    ∃ front, front ++ excerpt <+: t ∧ front.size = start ∧ front.count '\n' + 1 = line ∧
      front.lastLine = [] ∧ '\n' ∉ excerpt := by
  have hline : 1 ≤ line ∧ line ≤ t.count '\n' + 1 := by
    by_contra hout
    rw [lineStart?_eq_none (by omega) (by omega)] at hstart
    cases hstart
  obtain ⟨front, back, rfl, hcount⟩ :=
    Text.exists_front_of_le_count (t := t) (n := line - 1) (by omega)
  obtain rfl : line = front.count '\n' + 1 := by omega
  have hmax : front.count '\n' + 1 < maxOffset := by
    have := (front ++ back).count_newline_le_size
    rw [List.count_append] at this
    omega
  rw [lineStart?_count (by omega)] at hstart
  rw [lineText_eq (by omega) rfl hmax,
    ← Text.firstLine_append front.newline_not_mem_lastLine] at hexcerpt
  obtain rfl := Option.some.inj (Except.ok.inj hexcerpt)
  refine ⟨front.closedLines, ?_, Option.some.inj hstart, by rw [Text.count_newline_closedLines],
    front.lastLine_closedLines, Text.newline_not_mem_firstLine _⟩
  rw [← front.closedLines_append_lastLine_append, List.prefix_append_right_inj]
  exact (Text.withoutTerminator_prefix_self _).trans (Text.firstLine_prefix_self _)

/-- The text around a span within a line: earlier lines, both sides of the excerpt, and the rest. -/
theorem Span.WithinLine.exists_parts (hfits : t.size + 2 ≤ maxOffset)
    (h : span.WithinLine t spelled) :
    ∃ front left right after, t = front ++ left ++ (spelled ++ after) ∧
      Text.size (front ++ left) = span.start.toNat ∧ front.lastLine = [] ∧ '\n' ∉ left ∧
      (LineTable.ofText t).lineText t (front.count '\n' + 1) =
        .ok (some (left ++ spelled ++ right)) := by
  obtain ⟨hslice, -, line, start, excerpt, hstart, hexcerpt, hbegins, hends⟩ := h
  obtain ⟨before, after, ht, hbefore, hstop⟩ := Text.slice?_eq_some_iff.mp hslice
  obtain ⟨front, hprefix, rfl, rfl, hclosed, hline⟩ :=
    LineTable.exists_front_of_line hfits hstart hexcerpt
  have hspelled : before ++ spelled <+: t := ⟨after, ht.symm⟩
  obtain ⟨left, rfl⟩ := Text.prefix_of_size_le ((List.prefix_append _ _).trans hprefix)
    ((List.prefix_append _ _).trans hspelled) (hbegins.trans hbefore.ge)
  have hwithin : front ++ (left ++ spelled) <+: front ++ excerpt := by
    rw [← List.append_assoc]
    apply Text.prefix_of_size_le hspelled hprefix
    rwa [Text.size_append, Text.size_append front excerpt, hbefore, hstop]
  obtain ⟨right, rfl⟩ := (List.prefix_append_right_inj front).mp hwithin
  refine ⟨front, left, right, after, by rw [ht, List.append_assoc], hbefore, hclosed, ?_, hexcerpt⟩
  exact fun hmem => hline (List.mem_append_left right (List.mem_append_left spelled hmem))

/-- Behind whole lines the column is counted from the end of these. -/
theorem LineTable.position_within_line {front left back : Text} {offset : Nat}
    (hfits : t.size + 2 ≤ maxOffset) (ht : t = front ++ left ++ back)
    (hoffset : Text.size (front ++ left) = offset) (hclosed : front.lastLine = [])
    (hleft : '\n' ∉ left) :
    (ofText t).position t offset = .ok ⟨front.count '\n' + 1, left.length + 1⟩ := by
  subst ht hoffset
  have hsize : Text.size (front ++ left) < maxOffset := by
    rw [Text.size_append] at hfits
    omega
  rw [position_eq (by omega) rfl (Text.floor_size_append _ _), positionAfter_eq hsize,
    List.count_append, List.count_eq_zero.mpr hleft, Text.lastLine_append, if_neg hleft, hclosed]
  rfl

/-- A span within a line is located in that line, at its first character and as wide as it is. -/
theorem Location.exists_of_withinLine (hfits : t.size + 2 ≤ maxOffset)
    (h : span.WithinLine t spelled) :
    ∃ l left right, ofSpan t span = .ok l ∧ l.excerpt = left ++ spelled ++ right ∧
      l.column = left.length + 1 ∧ l.width = spelled.length := by
  obtain ⟨front, left, right, after, ht, hstart, hclosed, hleft, hexcerpt⟩ := h.exists_parts hfits
  obtain ⟨hslice, hsome, -⟩ := h
  have hposition := LineTable.position_within_line hfits ht hstart hclosed hleft
  have hwidth : markerWidth spelled.length (left ++ spelled ++ right).length (left.length + 1) =
      spelled.length := by
    apply markerWidth_eq (List.length_pos_iff.mpr hsome)
    · simp only [List.length_append, Nat.add_sub_cancel]
      omega
    · have := Text.length_le_size spelled
      simp only [ht, Text.size_append] at hfits
      omega
  refine ⟨⟨front.count '\n' + 1, left.length + 1, left ++ spelled ++ right, spelled.length⟩, left,
    right, ?_, rfl, rfl, rfl⟩
  rw [ofSpan, hposition]
  simp only [bind, Except.bind, hexcerpt, hslice, Option.getD_some, hwidth]
  rfl

end Lines

namespace Display.Entry

theorem length_margin (excerpt : Text) (columns : Nat) :
    (margin excerpt columns).length = columns := by
  rw [margin, List.length_append, List.length_map, List.length_take, List.length_replicate]
  omega

/-- The margin keeps the tabs of the excerpt and is blank for the rest. -/
theorem getElem?_margin {excerpt : Text} {columns i : Nat} (hi : i < columns) :
    (margin excerpt columns)[i]? = some (if excerpt[i]? = some '\t' then '\t' else ' ') := by
  by_cases hwithin : i < excerpt.length
  · have htake : i < (excerpt.take columns).length := by
      rw [List.length_take]
      omega
    rw [margin, List.getElem?_append_left (by rwa [List.length_map]), List.getElem?_map,
      List.getElem?_take_of_lt hi, List.getElem?_eq_getElem hwithin]
    simp
  · have hpast : (excerpt.take columns).length ≤ i := by
      rw [List.length_take]
      omega
    rw [margin, List.getElem?_append_right (by rwa [List.length_map]), List.length_map,
      List.length_take, List.getElem?_replicate, if_pos (by omega),
      List.getElem?_eq_none (by omega)]
    rfl

/-- The part of the excerpt above the margin has its tabs where the margin has them. -/
theorem getElem?_margin_eq_tab_iff {left more : Text} {columns : Nat}
    (hcolumns : columns = left.length) (i : Nat) :
    (margin (left ++ more) columns)[i]? = some '\t' ↔ left[i]? = some '\t' := by
  by_cases hi : i < columns
  · rw [getElem?_margin hi, List.getElem?_append_left (by omega)]
    split <;> simp [*]
  · rw [List.getElem?_eq_none (by rw [length_margin]; omega), List.getElem?_eq_none (by omega)]

variable {e : Entry} {l : Location}

/-- The last line of an entry but one, with the excerpt. -/
def excerptRow (l : Location) : Text :=
  Text.decimal l.line ++ [' '] ++ '|' :: if l.excerpt = [] then [] else ' ' :: l.excerpt

/-- The last line of an entry, with the marker. -/
def markerRow (l : Location) : Text :=
  List.replicate (Text.decimal l.line).length ' ' ++ [' '] ++ '|' :: ' ' ::
    (margin l.excerpt (l.column - 1) ++ List.replicate l.width '^')

theorem rows_of_location (h : e.location = some l) (filename : Text) :
    e.rows filename =
      ((e.heading :: e.hint.toList.map hintLine) ++
        (locationLines filename e.severity l).take 2).map (Line.write false) ++
        [excerptRow l, markerRow l] := by
  rw [rows, lines, h]
  simp [locationLines, Line.write_false, excerptRow, markerRow, painted, plain]

theorem bar_not_mem_decimal (n : Nat) : '|' ∉ Text.decimal n := by
  intro hmem
  have hdigit := Nat.isDigit_of_mem_toDigits (by decide) (by decide) hmem
  cases hdigit

theorem newline_not_mem_excerptRow (h : '\n' ∉ l.excerpt) : '\n' ∉ excerptRow l := by
  have hnone : isLayout '\n' = false := rfl
  unfold excerptRow
  split <;> simp [not_mem_decimal hnone, h]

theorem newline_not_mem_markerRow (l : Location) : '\n' ∉ markerRow l := by
  have hnone : isLayout '\n' = false := rfl
  simp [markerRow, not_mem_margin hnone]

/-- The last two lines of an entry with a location, whatever its texts are. -/
theorem exists_splitOn_render (h : e.location = some l) (hexcerpt : '\n' ∉ l.excerpt)
    (filename : Text) :
    ∃ earlier, (e.render filename).splitOn '\n' = earlier ++ [excerptRow l, markerRow l] := by
  rw [render_eq, rows_of_location h]
  apply Text.exists_splitOn_intercalate (List.cons_ne_nil _ _)
  exact List.forall_mem_cons.mpr ⟨newline_not_mem_excerptRow hexcerpt,
    List.forall_mem_singleton.mpr (newline_not_mem_markerRow l)⟩

end Display.Entry

open Display

/-- The last two lines of a diagnostic in a text have their bars at the same place. Behind one
stands the excerpt. Behind the other stands a margin up to the column, with a tab where the excerpt
has one and blanks elsewhere, and then the marker. A span within a line is found in the excerpt
above its marker, behind a part with tabs just where the margin has them. -/
theorem caret_marks_span {t : Text} {d : Diagnostic} {anchor : Anchor}
    (hfits : t.size + 2 ≤ maxOffset) (hanchor : d.anchor = some anchor)
    (hinto : anchor.PointsInto t) (filename : Text) :
    ∃ rendered l earlier gutter shown pad margin,
      d.render filename = .ok rendered ∧ anchor.locate = .ok l ∧
      rendered.splitOn '\n' = earlier ++ [gutter ++ '|' :: shown,
        pad ++ '|' :: ' ' :: (margin ++ List.replicate l.width '^')] ∧
      ('|' ∉ gutter ∧ '|' ∉ pad ∧ gutter.length = pad.length) ∧
      shown = (if l.excerpt = [] then [] else ' ' :: l.excerpt) ∧
      margin.length = l.column - 1 ∧
      (∀ i < l.column - 1,
        margin[i]? = some (if l.excerpt[i]? = some '\t' then '\t' else ' ')) ∧
      ∀ spelled, anchor.span.WithinLine t spelled →
        ∃ left right, l.excerpt = left ++ spelled ++ right ∧ left.length = margin.length ∧
          spelled.length = l.width ∧ ∀ i : Nat, left[i]? = some '\t' ↔ margin[i]? = some '\t' := by
  obtain ⟨l, hl, hexcerpt⟩ := Location.exists_ofSpan hfits anchor.span
  rw [← hinto.locate_eq] at hl
  have hplace : d.location = .ok (some l) := by
    rw [Diagnostic.location_of_some hanchor, hl]
    rfl
  have hentry := Diagnostic.entry_eq hplace
  obtain ⟨earlier, hrows⟩ := Entry.exists_splitOn_render
    (e := ⟨d.severity, d.kind, d.message, d.hint, some l⟩) rfl hexcerpt filename
  refine ⟨_, l, earlier, Text.decimal l.line ++ [' '], _,
    List.replicate (Text.decimal l.line).length ' ' ++ [' '], Entry.margin l.excerpt (l.column - 1),
    ?_, hl, hrows, ⟨?_, ?_, ?_⟩, rfl, Entry.length_margin _ _, fun i hi => Entry.getElem?_margin hi,
    ?_⟩
  · rw [Diagnostic.render, hentry]
    rfl
  · simp [Entry.bar_not_mem_decimal]
  · simp
  · simp
  · intro spelled hwithin
    obtain ⟨l', left, right, hl', hparts, hcolumn, hwidth⟩ :=
      Location.exists_of_withinLine hfits hwithin
    rw [hinto.locate_eq] at hl
    obtain rfl := Except.ok.inj (hl'.symm.trans hl)
    refine ⟨left, right, hparts, ?_, hwidth.symm, ?_⟩
    · rw [Entry.length_margin, hcolumn, Nat.add_sub_cancel]
    · intro i
      rw [hparts, List.append_assoc]
      exact (Entry.getElem?_margin_eq_tab_iff (by rw [hcolumn, Nat.add_sub_cancel]) i).symm

/-- A stretch behind a tab, a character of two bytes and a blank, on a line that ends in `\r\n`. -/
theorem caret_marks_behind_tab :
    let t : Text := "x\n\tβ (γ\r\n".toList
    let anchor : Anchor := .attached t ⟨6, 9⟩
    let d : Diagnostic := ⟨.about (.adHoc "odd\n".toList) anchor, .worry⟩
    (t.size + 2 ≤ maxOffset ∧ d.anchor = some anchor ∧ anchor.PointsInto t ∧
      anchor.span.WithinLine t "(γ".toList) ∧
      ∃ rendered earlier gutter pad margin left right, d.render ['f'] = .ok rendered ∧
        rendered.splitOn '\n' =
          earlier ++ [gutter ++ '|' :: ' ' :: (left ++ "(γ".toList ++ right),
            pad ++ '|' :: ' ' :: (margin ++ "^^".toList)] ∧
        gutter.length = pad.length ∧ left.length = margin.length ∧ margin.length = 3 := by
  intro t anchor d
  have hfits : t.size + 2 ≤ maxOffset := by decide
  have hinto : anchor.PointsInto t := .attached _
  have hwithin : anchor.span.WithinLine t "(γ".toList :=
    ⟨by decide +kernel, by decide, 2, 2, "\tβ (γ".toList, by decide +kernel, by decide +kernel,
      by decide, by decide +kernel⟩
  obtain ⟨rendered, l, earlier, gutter, shown, pad, margin, hrender, hl, hrows, ⟨-, -, hbar⟩,
    hshown, hmargin, -, hmarks⟩ := caret_marks_span hfits (d := d) rfl hinto ['f']
  obtain ⟨left, right, hparts, hleft, -, -⟩ := hmarks _ hwithin
  have hlocate : anchor.locate = .ok ⟨2, 4, "\tβ (γ".toList, 2⟩ := by decide +kernel
  obtain rfl := Except.ok.inj (hl.symm.trans hlocate)
  rw [if_neg (by decide), hparts] at hshown
  rw [hshown] at hrows
  exact ⟨⟨hfits, rfl, hinto, hwithin⟩, rendered, earlier, gutter, pad, margin, left, right, hrender,
    hrows, hbar, hleft, hmargin⟩

end ParseReport
