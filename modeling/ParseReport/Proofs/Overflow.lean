import ParseReport.Proofs.Locate

/-!
# Lookups that do not fit in 32 bits

An ordinal is missing for one count alone, the largest offset. A text has to be of the largest
size to have that many line ends or that many characters on its last line, and then only the
offset at its very end meets the count. The successor of a line number is missing for the largest
number, so for a line that only texts one byte shorter have as well.
-/

namespace ParseReport

namespace Text

theorem le_of_mem_newlineEnds_cons {offset start : Nat} {c : Char} {t : Text}
    (h : start ∈ newlineEnds offset (c :: t)) : offset + c.utf8Size ≤ start := by
  rw [newlineEnds] at h
  split at h
  · rcases List.mem_cons.mp h with rfl | h
    · exact Nat.le_refl _
    · exact Nat.le_of_lt (bounds_of_mem_newlineEnds h).1
  · exact Nat.le_of_lt (bounds_of_mem_newlineEnds h).1

/-- A text can be cut before any of its lines. -/
theorem exists_front_of_le_count {t : Text} {n : Nat} (h : n ≤ t.count '\n') :
    ∃ front back, t = front ++ back ∧ front.count '\n' = n := by
  induction t generalizing n with
  | nil =>
      refine ⟨[], [], rfl, ?_⟩
      rw [List.count_nil] at h ⊢
      omega
  | cons c t ih =>
      cases n with
      | zero => exact ⟨[], c :: t, rfl, rfl⟩
      | succ n =>
          by_cases hc : c = '\n'
          · rw [hc, List.count_cons_self] at h
            obtain ⟨front, back, rfl, hcount⟩ := ih (Nat.le_of_succ_le_succ h)
            exact ⟨c :: front, back, rfl, by rw [hc, List.count_cons_self, hcount]⟩
          · rw [List.count_cons_of_ne hc] at h
            obtain ⟨front, back, rfl, hcount⟩ := ih h
            exact ⟨c :: front, back, rfl, by rw [List.count_cons_of_ne hc, hcount]⟩

/-- What is counted along a text, at most once for each byte, reaches the largest offset in front
of a cut only if the cut is at that offset and the text ends there. -/
theorem eq_maxOffset_iff {measure : Text → Nat} (hmeasure : ∀ t, measure t ≤ t.size)
    {t front back : Text} {offset : Nat} (hsize : t.size ≤ maxOffset) (hoffset : offset ≤ maxOffset)
    (ht : t = front ++ back) (hfit : front.size ≤ offset)
    (hstop : ∀ c back', back = c :: back' → offset < front.size + c.utf8Size) :
    measure front = maxOffset ↔ offset = maxOffset ∧ measure t = maxOffset := by
  have htotal : t.size = front.size + back.size := by rw [ht, size_append]
  have hfront := hmeasure front
  have hwhole : offset = maxOffset → t = front := by
    intro hlast
    cases back with
    | nil => rw [ht, List.append_nil]
    | cons c back =>
        have := hstop c back rfl
        rw [size_cons] at htotal
        omega
  constructor
  · intro hfull
    have hlast : offset = maxOffset := by omega
    exact ⟨hlast, by rw [hwhole hlast, hfull]⟩
  · rintro ⟨hlast, hfull⟩
    rw [← hwhole hlast, hfull]

theorem length_lastLine_le_size (t : Text) : t.lastLine.length ≤ t.size :=
  Nat.le_trans t.length_lastLine_le t.length_le_size

theorem size_replicate (n : Nat) (c : Char) : size (List.replicate n c) = n * c.utf8Size := by
  induction n with
  | zero => rw [List.replicate_zero, size_nil, Nat.zero_mul]
  | succ n ih => rw [List.replicate_succ, size_cons, ih, Nat.succ_mul, Nat.add_comm]

end Text

theorem toNat_le_maxOffset (n : UInt32) : n.toNat ≤ maxOffset := by
  have := n.toNat_lt
  unfold maxOffset
  omega

theorem exists_ordinal {count : Nat} (h : count ≠ maxOffset) : ∃ n, ordinal count = .ok n := by
  cases hn : ordinal count with
  | error fault => exact absurd (ordinal_eq_error_iff.mp hn).2 h
  | ok n => exact ⟨n, rfl⟩

theorem positionAfter_eq_error_iff {front : Text} {fault : Fault} :
    positionAfter front = .error fault ↔
      fault = .overflow ∧ (front.count '\n' = maxOffset ∨ front.lastLine.length = maxOffset) := by
  rw [positionAfter]
  by_cases hlines : front.count '\n' = maxOffset
  · rw [hlines, ordinal_maxOffset]
    constructor
    · rintro ⟨⟩
      exact ⟨rfl, .inl rfl⟩
    · rintro ⟨rfl, -⟩
      rfl
  · obtain ⟨line, hline⟩ := exists_ordinal hlines
    rw [hline]
    by_cases hcolumns : front.lastLine.length = maxOffset
    · rw [hcolumns, ordinal_maxOffset]
      constructor
      · rintro ⟨⟩
        exact ⟨rfl, .inr rfl⟩
      · rintro ⟨rfl, -⟩
        rfl
    · obtain ⟨column, hcolumn⟩ := exists_ordinal hcolumns
      rw [hcolumn]
      constructor
      · rintro ⟨⟩
      · rintro ⟨-, h | h⟩
        · exact absurd h hlines
        · exact absurd h hcolumns

namespace LineTable
variable {t front back : Text} {offset : Nat} {fault : Fault}

/-- The line of an offset is that of the boundary it is moved down to. -/
theorem lineAt_eq (hsize : (front ++ back).size ≤ maxOffset) (hfit : front.size ≤ offset)
    (hstop : ∀ c back', back = c :: back' → offset < front.size + c.utf8Size) :
    (ofText (front ++ back)).lineAt offset = ordinal (front.count '\n') := by
  rw [ofText_eq hsize, Text.lineStarts_append, lineAt, firstAbove_append]
  · simp
  · intro start hmem
    exact Nat.le_trans (Text.le_size_of_mem_lineStarts hmem) hfit
  · intro start hmem
    cases back with
    | nil => cases hmem
    | cons c back => exact Nat.lt_of_lt_of_le (hstop c back rfl) (Text.le_of_mem_newlineEnds_cons hmem)

theorem lineAt_eq_error_iff (hsize : t.size ≤ maxOffset) (hoffset : offset ≤ maxOffset) :
    (ofText t).lineAt offset = .error fault ↔
      fault = .overflow ∧ offset = maxOffset ∧ t.count '\n' = maxOffset := by
  obtain ⟨front, back, ht, -, hfit, hstop⟩ := t.exists_floor offset
  rw [← Text.eq_maxOffset_iff Text.count_newline_le_size hsize hoffset ht hfit hstop]
  subst ht
  rw [lineAt_eq hsize hfit hstop, ordinal_eq_error_iff]

theorem lineStart?_eq_none (hsize : t.size ≤ maxOffset) {line : Nat}
    (hline : line = 0 ∨ t.count '\n' + 1 < line) : (ofText t).lineStart? line = none := by
  rw [lineStart?, ofText_eq hsize]
  split
  · rfl
  · rw [List.getElem?_toArray, List.getElem?_eq_none]
    rw [Text.length_lineStarts]
    omega

/-- The text of a line is found, or there is no such line; only the largest line number has no
successor to end its line. -/
theorem lineText_eq_error_iff (hsize : t.size ≤ maxOffset) {line : Nat}
    (hline : line ≤ maxOffset) :
    (ofText t).lineText t line = .error fault ↔
      fault = .overflow ∧ line = maxOffset ∧ maxOffset ≤ t.count '\n' + 1 := by
  by_cases hexists : 1 ≤ line ∧ line ≤ t.count '\n' + 1
  · obtain ⟨front, back, ht, hcount⟩ :=
      Text.exists_front_of_le_count (t := t) (n := line - 1) (by omega)
    obtain rfl : line = front.count '\n' + 1 := by omega
    by_cases hlast : front.count '\n' + 1 = maxOffset
    · have hnext : successor (front.count '\n' + 1) = .error .overflow := by
        rw [hlast]
        rfl
      subst ht
      rw [lineText, lineStart?_count hsize]
      simp only [hnext, bind, Except.bind]
      constructor
      · rintro ⟨⟩
        exact ⟨rfl, hlast, by omega⟩
      · rintro ⟨rfl, -⟩
        rfl
    · rw [lineText_eq hsize ht (by omega)]
      constructor
      · rintro ⟨⟩
      · rintro ⟨-, hmax, -⟩
        exact absurd hmax hlast
  · have hnone : (ofText t).lineText t line = .ok none := by
      rw [lineText, lineStart?_eq_none hsize (by omega)]
      rfl
    rw [hnone]
    constructor
    · rintro ⟨⟩
    · rintro ⟨-, hlast, hlines⟩
      have : 1 ≤ maxOffset := by decide
      omega

end LineTable

/-- Where a cut at an offset has no position. -/
theorem positionAfter_eq_error_iff_of_cut {t front back : Text} {offset : Nat} {fault : Fault}
    (hsize : t.size ≤ maxOffset) (hoffset : offset ≤ maxOffset) (ht : t = front ++ back)
    (hfit : front.size ≤ offset)
    (hstop : ∀ c back', back = c :: back' → offset < front.size + c.utf8Size) :
    positionAfter front = .error fault ↔
      fault = .overflow ∧ offset = maxOffset ∧
        (t.count '\n' = maxOffset ∨ t.lastLine.length = maxOffset) := by
  rw [positionAfter_eq_error_iff,
    Text.eq_maxOffset_iff Text.count_newline_le_size hsize hoffset ht hfit hstop,
    Text.eq_maxOffset_iff Text.length_lastLine_le_size hsize hoffset ht hfit hstop,
    ← and_or_left]

theorem LineTable.position_eq_error_iff {t : Text} {offset : Nat} {fault : Fault}
    (hsize : t.size ≤ maxOffset) (hoffset : offset ≤ maxOffset) :
    (ofText t).position t offset = .error fault ↔
      fault = .overflow ∧ offset = maxOffset ∧
        (t.count '\n' = maxOffset ∨ t.lastLine.length = maxOffset) := by
  obtain ⟨front, back, ht, hfloor, hfit, hstop⟩ := t.exists_floor offset
  rw [position_eq hsize ht hfloor]
  exact positionAfter_eq_error_iff_of_cut hsize hoffset ht hfit hstop

theorem Text.position_eq_error_iff {t : Text} {offset : Nat} {fault : Fault}
    (hsize : t.size ≤ maxOffset) (hoffset : offset ≤ maxOffset) :
    t.position offset = .error fault ↔
      fault = .overflow ∧ offset = maxOffset ∧
        (t.count '\n' = maxOffset ∨ t.lastLine.length = maxOffset) := by
  obtain ⟨front, back, ht, -, hfit, hstop⟩ := t.exists_floor offset
  rw [position_eq hsize ht hfit hstop]
  exact positionAfter_eq_error_iff_of_cut hsize hoffset ht hfit hstop

/-- On a text that fits, a lookup fails by an overflow alone, and only where a count is the
largest offset: the line ends before the last offset, the characters of the line it lies on, or
the number of a line to which the text comes. -/
theorem lookups_overflow_iff (t : Text) (hsize : t.size ≤ maxOffset) (offset line : UInt32)
    (fault : Fault) :
    ((LineTable.ofText t).lineAt offset.toNat = .error fault ↔
      fault = .overflow ∧ offset.toNat = maxOffset ∧ t.count '\n' = maxOffset) ∧
    ((LineTable.ofText t).position t offset.toNat = .error fault ↔
      fault = .overflow ∧ offset.toNat = maxOffset ∧
        (t.count '\n' = maxOffset ∨ t.lastLine.length = maxOffset)) ∧
    (t.position offset.toNat = .error fault ↔
      fault = .overflow ∧ offset.toNat = maxOffset ∧
        (t.count '\n' = maxOffset ∨ t.lastLine.length = maxOffset)) ∧
    ((LineTable.ofText t).lineText t line.toNat = .error fault ↔
      fault = .overflow ∧ line.toNat = maxOffset ∧ maxOffset ≤ t.count '\n' + 1) := by
  have hoffset := toNat_le_maxOffset offset
  exact ⟨LineTable.lineAt_eq_error_iff hsize hoffset,
    LineTable.position_eq_error_iff hsize hoffset, Text.position_eq_error_iff hsize hoffset,
    LineTable.lineText_eq_error_iff hsize (toNat_le_maxOffset line)⟩

/-- Past the end of a short text there is still a position, and no line. -/
theorem lookups_past_end :
    Text.size ['a', '\n'] ≤ maxOffset ∧
      (LineTable.ofText ['a', '\n']).position ['a', '\n'] (0xFFFFFFFF : UInt32).toNat ≠
        .error .overflow ∧
      (LineTable.ofText ['a', '\n']).lineText ['a', '\n'] (0xFFFFFFFF : UInt32).toNat ≠
        .error .overflow := by
  have hsize : Text.size ['a', '\n'] ≤ maxOffset := by decide
  obtain ⟨-, hposition, -, hline⟩ :=
    lookups_overflow_iff ['a', '\n'] hsize 0xFFFFFFFF 0xFFFFFFFF .overflow
  exact ⟨hsize, mt hposition.mp (by decide), mt hline.mp (by decide)⟩

/-- In a text of the largest size that is line ends alone, the end has no line number, and the
line of the largest number has no text. In one that is a single line, the end has no column. -/
theorem lookups_overflow_on_largest :
    let ends : Text := List.replicate maxOffset '\n'
    let row : Text := List.replicate maxOffset 'a'
    (ends.size ≤ maxOffset ∧
      (LineTable.ofText ends).lineAt (0xFFFFFFFF : UInt32).toNat = .error .overflow ∧
      ends.position (0xFFFFFFFF : UInt32).toNat = .error .overflow ∧
      (LineTable.ofText ends).lineText ends (0xFFFFFFFF : UInt32).toNat = .error .overflow) ∧
    (row.size ≤ maxOffset ∧
      (LineTable.ofText row).position row (0xFFFFFFFF : UInt32).toNat = .error .overflow ∧
      row.position (0xFFFFFFFF : UInt32).toNat = .error .overflow) := by
  intro ends row
  have hlast : (0xFFFFFFFF : UInt32).toNat = maxOffset := rfl
  have hends : ends.size ≤ maxOffset := by
    rw [Text.size_replicate]
    exact Nat.le_of_eq (Nat.mul_one maxOffset)
  have hrow : row.size ≤ maxOffset := by
    rw [Text.size_replicate]
    exact Nat.le_of_eq (Nat.mul_one maxOffset)
  have hlines : ends.count '\n' = maxOffset := List.count_replicate_self
  have hcolumns : row.lastLine.length = maxOffset := by
    have hnone : '\n' ∉ row := fun hmem => absurd (List.eq_of_mem_replicate hmem) (by decide)
    rw [Text.lastLine_eq_self hnone, List.length_replicate]
  rw [hlast]
  refine ⟨⟨hends, ?_, ?_, ?_⟩, hrow, ?_, ?_⟩
  · exact (LineTable.lineAt_eq_error_iff hends (Nat.le_refl _)).mpr ⟨rfl, rfl, hlines⟩
  · exact (Text.position_eq_error_iff hends (Nat.le_refl _)).mpr ⟨rfl, rfl, .inl hlines⟩
  · refine (LineTable.lineText_eq_error_iff hends (Nat.le_refl _)).mpr ⟨rfl, rfl, ?_⟩
    rw [hlines]
    exact Nat.le_succ _
  · exact (LineTable.position_eq_error_iff hrow (Nat.le_refl _)).mpr ⟨rfl, rfl, .inr hcolumns⟩
  · exact (Text.position_eq_error_iff hrow (Nat.le_refl _)).mpr ⟨rfl, rfl, .inr hcolumns⟩

end ParseReport
