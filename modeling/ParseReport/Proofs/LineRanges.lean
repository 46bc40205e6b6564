import ParseReport.Proofs.LineTexts

/-!
# Each line is a range of offsets

Seen as bytes, a text has its line starts at 0 and behind each `\n` byte, for no other character
has that byte in its UTF-8 form. The starts increase, so each offset lies in the range of one line,
also an offset inside a character or past the end, and the `\n` bytes below it give the number of
that line.
-/

namespace ParseReport

namespace Text

/-- The bytes of the UTF-8 form. -/
def bytes (t : Text) : List UInt8 := t.flatMap String.utf8EncodeChar

theorem bytes_cons (c : Char) (t : Text) : bytes (c :: t) = String.utf8EncodeChar c ++ t.bytes :=
  List.flatMap_cons

@[simp] theorem bytes_append (a b : Text) : (a ++ b).bytes = a.bytes ++ b.bytes :=
  List.flatMap_append

@[simp] theorem length_bytes (t : Text) : t.bytes.length = t.size := by
  induction t with
  | nil => rfl
  | cons c t ih => rw [bytes_cons, List.length_append, String.length_utf8EncodeChar, ih, size_cons]

/-- The byte of a `\n`. -/
def newlineByte : UInt8 := 0x0A

/-- A character of more than one byte has no byte in common with the one-byte characters. -/
theorem le_of_mem_utf8EncodeChar {c : Char} {byte : UInt8} (hwide : 127 < c.val.toNat)
    (h : byte ∈ String.utf8EncodeChar c) : 128 ≤ byte.toNat := by
  grind [String.utf8EncodeChar, UInt8.toNat_ofNat']

theorem newlineByte_mem_iff {c : Char} : newlineByte ∈ String.utf8EncodeChar c ↔ c = '\n' := by
  constructor
  · intro hmem
    by_cases hwide : 127 < c.val.toNat
    · exact absurd (le_of_mem_utf8EncodeChar hwide hmem) (by decide)
    · rw [String.utf8EncodeChar, if_pos (Nat.not_lt.mp hwide), List.mem_singleton] at hmem
      have hvalue := congrArg UInt8.toNat hmem
      rw [UInt8.toNat_ofNat', Nat.mod_eq_of_lt (by omega)] at hvalue
      exact Char.toNat_inj.mp hvalue.symm
  · rintro rfl
    decide

theorem count_bytes (t : Text) : t.bytes.count newlineByte = t.count '\n' := by
  induction t with
  | nil => rfl
  | cons c t ih =>
      rw [bytes_cons, List.count_append, ih, Nat.add_comm]
      by_cases hc : c = '\n'
      · rw [hc, List.count_cons_self]
        rfl
      · rw [List.count_cons_of_ne hc, List.count_eq_zero.mpr (mt newlineByte_mem_iff.mp hc),
          Nat.add_zero]

/-- The `\n` bytes below an offset are those of the front part that the offset is moved down to:
the bytes of a character that the offset lies inside are none of them. -/
theorem count_take_bytes {front back : Text} {offset : Nat} (hfit : front.size ≤ offset)
    (hstop : ∀ c back', back = c :: back' → offset < front.size + c.utf8Size) :
    ((front ++ back).bytes.take offset).count newlineByte = front.count '\n' := by
  have hback : newlineByte ∉ back.bytes.take (offset - front.size) := by
    cases back with
    | nil => exact fun hmem => List.not_mem_nil (List.mem_of_mem_take hmem)
    | cons c back =>
        have hlt : offset - front.size < c.utf8Size := by
          have := hstop c back rfl
          omega
        rw [bytes_cons, List.take_append_of_le_length (by simpa using Nat.le_of_lt hlt)]
        intro hmem
        obtain rfl := newlineByte_mem_iff.mp (List.mem_of_mem_take hmem)
        rw [Nat.lt_one_iff.mp hlt] at hmem
        exact List.not_mem_nil hmem
  have hfront : front.bytes.length ≤ offset := by rwa [length_bytes]
  rw [bytes_append, List.take_append, List.take_of_length_le hfront, length_bytes,
    List.count_append, List.count_eq_zero.mpr hback, count_bytes, Nat.add_zero]

/-- The offsets behind the line ends, found byte by byte. -/
theorem newlineEnds_eq (offset : Nat) (t : Text) :
    t.newlineEnds offset =
      ((t.bytes.zipIdx offset).filter (·.1 = newlineByte)).map (·.2 + 1) := by
  induction t generalizing offset with
  | nil => rfl
  | cons c t ih =>
      rw [bytes_cons, List.zipIdx_append, String.length_utf8EncodeChar, List.filter_append,
        List.map_append, ← ih, newlineEnds]
      by_cases hc : c = '\n'
      · rw [if_pos hc, hc]
        rfl
      · have hnone : ((String.utf8EncodeChar c).zipIdx offset).filter (·.1 = newlineByte) = [] := by
          rw [List.filter_eq_nil_iff]
          intro entry hentry hbyte
          rw [decide_eq_true_eq] at hbyte
          exact hc (newlineByte_mem_iff.mp (hbyte ▸ List.fst_mem_of_mem_zipIdx hentry))
        rw [if_neg hc, hnone, List.map_nil, List.nil_append]

theorem mem_newlineEnds_iff {t : Text} {start : Nat} :
    start ∈ t.newlineEnds 0 ↔ ∃ i, t.bytes[i]? = some newlineByte ∧ start = i + 1 := by
  rw [newlineEnds_eq, List.mem_map]
  simp only [List.mem_filter, decide_eq_true_eq, List.mem_zipIdx_iff_getElem?]
  constructor
  · rintro ⟨⟨byte, i⟩, ⟨hbyte, rfl⟩, rfl⟩
    exact ⟨i, hbyte, rfl⟩
  · rintro ⟨i, hbyte, rfl⟩
    exact ⟨(newlineByte, i), ⟨hbyte, rfl⟩, rfl⟩

theorem utf8Size_le_size_firstLine (c : Char) (t : Text) :
    c.utf8Size ≤ (firstLine (c :: t)).size := by
  rw [firstLine]
  split <;> exact Nat.le_add_right _ _

theorem pairwise_newlineEnds (offset : Nat) (t : Text) :
    (t.newlineEnds offset).Pairwise (· < ·) := by
  induction t generalizing offset with
  | nil => exact List.Pairwise.nil
  | cons c t ih =>
      rw [newlineEnds]
      split
      · exact List.pairwise_cons.mpr ⟨fun _ hmem => (bounds_of_mem_newlineEnds hmem).1, ih _⟩
      · exact ih _

theorem pairwise_lineStarts (t : Text) : t.lineStarts.Pairwise (· < ·) :=
  List.pairwise_cons.mpr
    ⟨fun _ hmem => (bounds_of_mem_newlineEnds hmem).1, t.pairwise_newlineEnds 0⟩

end Text

namespace LineTable
variable {table : LineTable} {t : Text} {line line' start start' offset : Nat}

theorem isSome_lineStart?_iff : (table.lineStart? line).isSome ↔ 1 ≤ line ∧ line ≤ table.lineCount := by
  rw [lineStart?, lineCount]
  split
  · rename_i hzero
    exact iff_of_false Bool.false_ne_true (by omega)
  · rw [isSome_getElem?]
    omega

/-- The line starts at the offset or below it, and the line after it, if there is one, starts above
the offset. -/
def Holds (table : LineTable) (line offset : Nat) : Prop :=
  (∃ start, table.lineStart? line = some start ∧ start ≤ offset) ∧
    ∀ next, table.lineStart? (line + 1) = some next → offset < next

section Sorted
variable (hsorted : table.starts.toList.Pairwise (· < ·))
include hsorted

theorem lineStart?_lt (h : table.lineStart? line = some start)
    (h' : table.lineStart? line' = some start') (hlt : line < line') : start < start' := by
  have hline := (isSome_lineStart?_iff.mp (Option.isSome_of_eq_some h)).1
  rw [lineStart?, if_neg (by omega), ← Array.getElem?_toList] at h h'
  obtain ⟨hi, rfl⟩ := List.getElem?_eq_some_iff.mp h
  obtain ⟨hj, rfl⟩ := List.getElem?_eq_some_iff.mp h'
  exact List.pairwise_iff_getElem.mp hsorted _ _ hi hj (by omega)

theorem lineStart?_le (h : table.lineStart? line = some start)
    (h' : table.lineStart? line' = some start') (hle : line ≤ line') : start ≤ start' := by
  rcases Nat.lt_or_eq_of_le hle with hlt | rfl
  · exact Nat.le_of_lt (lineStart?_lt hsorted h h' hlt)
  · exact Nat.le_of_eq (Option.some.inj (h.symm.trans h'))

/-- No later line holds an offset that a line holds. -/
theorem Holds.le (h : table.Holds line offset) (h' : table.Holds line' offset) : line' ≤ line := by
  obtain ⟨⟨start, hstart, -⟩, hnext⟩ := h
  obtain ⟨⟨start', hstart', hle⟩, -⟩ := h'
  by_contra hlt
  have hlast := (isSome_lineStart?_iff.mp (Option.isSome_of_eq_some hstart')).2
  obtain ⟨next, hfound⟩ := Option.isSome_iff_exists.mp
    (isSome_lineStart?_iff.mpr ⟨Nat.le_add_left 1 line, (by omega : line + 1 ≤ table.lineCount)⟩)
  have habove := hnext next hfound
  have hbelow := lineStart?_le hsorted hfound hstart' (by omega)
  omega

theorem Holds.unique (h : table.Holds line offset) (h' : table.Holds line' offset) : line = line' :=
  Nat.le_antisymm (h'.le hsorted h) (h.le hsorted h')

/-- A line holds the offset at which it starts. -/
theorem holds_start (h : table.lineStart? line = some start) : table.Holds line start :=
  ⟨⟨start, h, Nat.le_refl _⟩, fun _ hnext => lineStart?_lt hsorted h hnext (Nat.lt_succ_self _)⟩

end Sorted

theorem pairwise_starts (hsize : t.size ≤ maxOffset) :
    (ofText t).starts.toList.Pairwise (· < ·) := by
  rw [ofText_eq hsize]
  exact t.pairwise_lineStarts

/-- The line that the search finds holds the offset. -/
theorem exists_lineAt (hfits : t.size + 2 ≤ maxOffset) (offset : Nat) :
    (ofText t).lineAt offset = .ok ((t.bytes.take offset).count Text.newlineByte + 1) ∧
      (ofText t).Holds ((t.bytes.take offset).count Text.newlineByte + 1) offset := by
  obtain ⟨front, back, rfl, -, hfit, hstop⟩ := t.exists_floor offset
  have hsize : (front ++ back).size ≤ maxOffset := by omega
  have hcount : front.count '\n' < maxOffset := by
    have := front.count_newline_le_size
    rw [Text.size_append] at hfits
    omega
  rw [Text.count_take_bytes hfit hstop]
  refine ⟨?_, ⟨_, lineStart?_count hsize, front.size_closedLines_le.trans hfit⟩, ?_⟩
  · rw [lineAt_eq hsize hfit hstop, ordinal_of_lt hcount]
  · intro next hnext
    rw [lineStart?_next hsize] at hnext
    split at hnext
    · cases hnext
      cases back with
      | nil => contradiction
      | cons c back =>
          have hfirst := Text.utf8Size_le_size_firstLine c back
          have := hstop c back rfl
          omega
    · cases hnext

theorem lineAt_eq_ok_iff (hfits : t.size + 2 ≤ maxOffset) :
    (ofText t).lineAt offset = .ok line ↔ (ofText t).Holds line offset := by
  obtain ⟨hline, hholds⟩ := exists_lineAt hfits offset
  rw [hline]
  constructor
  · rintro ⟨⟩
    exact hholds
  · intro h
    rw [hholds.unique (pairwise_starts (by omega)) h]

end LineTable

/-- The line starts are 0 and the offsets behind the `\n` bytes, in increasing order. So the line of
an offset is one more than there are `\n` bytes below it, it is the only line that starts at the
offset or below it with the next one above it, and the line of a line start is that line. -/
theorem lines_divide_offsets (t : Text) (hfits : t.size + 2 ≤ maxOffset) :
    let table := LineTable.ofText t
    let starts := table.starts.toList
    (starts.head? = some 0 ∧ starts.Pairwise (· < ·) ∧ (∀ start ∈ starts, start ≤ t.size) ∧
      ∀ start, start ∈ starts.tail ↔ ∃ i, t.bytes[i]? = some Text.newlineByte ∧ start = i + 1) ∧
    (∀ offset : UInt32,
      table.lineAt offset.toNat =
        .ok ((t.bytes.take offset.toNat).count Text.newlineByte + 1) ∧
      ∀ line, table.lineAt offset.toNat = .ok line ↔ table.Holds line offset.toNat) ∧
    ∀ line, ((table.lineStart? line).isSome ↔ 1 ≤ line ∧ line ≤ table.lineCount) ∧
      ∀ start, table.lineStart? line = some start → table.lineAt start = .ok line := by
  intro table starts
  have hsize : t.size ≤ maxOffset := by omega
  have hstarts : starts = t.lineStarts := congrArg (·.starts.toList) (LineTable.ofText_eq hsize)
  have hsorted : starts.Pairwise (· < ·) := LineTable.pairwise_starts hsize
  refine ⟨⟨?_, hsorted, ?_, ?_⟩, ?_, ?_⟩
  · rw [hstarts]
    rfl
  · rw [hstarts]
    exact fun start hmem => Text.le_size_of_mem_lineStarts hmem
  · rw [hstarts]
    exact fun start => Text.mem_newlineEnds_iff
  · intro offset
    exact ⟨(LineTable.exists_lineAt hfits _).1, fun line => LineTable.lineAt_eq_ok_iff hfits⟩
  · intro line
    refine ⟨LineTable.isSome_lineStart?_iff, fun start hstart => ?_⟩
    exact (LineTable.lineAt_eq_ok_iff hfits).mpr (LineTable.holds_start hsorted hstart)

/-- An offset inside a character of the second line, and one past the end of the text. -/
theorem lines_divide_around_wide :
    let t : Text := "a\nβγ\n".toList
    let table := LineTable.ofText t
    t.size + 2 ≤ maxOffset ∧
      (table.lineAt (3 : UInt32).toNat = .ok 2 ∧ table.Holds 2 (3 : UInt32).toNat) ∧
      (table.lineAt (90 : UInt32).toNat = .ok 3 ∧ table.Holds 3 (90 : UInt32).toNat) ∧
      (table.lineStart? 3 = some 7 ∧ table.lineAt 7 = .ok 3) := by
  intro t table
  have hfits : t.size + 2 ≤ maxOffset := by decide
  obtain ⟨-, hoffsets, hlines⟩ := lines_divide_offsets t hfits
  have hinside : table.lineAt (3 : UInt32).toNat = .ok 2 := (hoffsets 3).1
  have hpast : table.lineAt (90 : UInt32).toNat = .ok 3 := (hoffsets 90).1
  have hstart : table.lineStart? 3 = some 7 := by decide
  exact ⟨hfits, ⟨hinside, ((hoffsets 3).2 2).mp hinside⟩, ⟨hpast, ((hoffsets 90).2 3).mp hpast⟩,
    hstart, (hlines 3).2 7 hstart⟩

end ParseReport
