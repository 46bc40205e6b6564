import ParseReport.Proofs.Boundaries
import ParseReport.Proofs.LineRanges

/-!
# Tables of other texts

A table can be used on a text that it was not built from. Its lookups clamp what they slice, so the
ends of a slice are in order and within the text, and a lookup fails exactly where one of them lies
inside a character of the text at hand. A table without lines puts all offsets on one line, which
starts where the text does.
-/

namespace ParseReport

namespace Text
variable {t : Text} {start offset : Nat}

theorem length_le_size_of_slice? {stop : Nat} {m : Text} (h : t.slice? start stop = some m) :
    m.length ≤ t.size := by
  obtain ⟨before, after, rfl, -, -⟩ := slice?_eq_some_iff.mp h
  have := m.length_le_size
  simp only [size_append]
  omega

/-- A slice up to a floor can only be missing for its start. -/
theorem slice?_floor_eq_none_iff (h : start ≤ t.floor offset) :
    t.slice? start (t.floor offset) = none ↔ ¬t.IsBoundary start := by
  rw [slice?_eq_none_iff, not_iff_not]
  exact ⟨fun hends => hends.2.1, fun hstart => ⟨h, hstart, t.isBoundary_floor offset⟩⟩

end Text

namespace LineTable
variable {table : LineTable} {t : Text} {offset line start : Nat}

/-- A lookup of the offset in `t` comes to the line, and slices from `start` up to the boundary that
the offset is moved down to. -/
structure Finds (table : LineTable) (t : Text) (offset line start : Nat) : Prop where
  lineAt : table.lineAt (t.floor offset) = .ok line
  ordered : start ≤ t.floor offset
  inRange : t.floor offset ≤ t.size
  fails_iff : ∀ fault, table.position t offset = .error fault ↔
    fault = .slice ∧ ¬t.IsBoundary start
  found : ∀ passed, t.slice? start (t.floor offset) = some passed →
    table.position t offset = .ok ⟨line, passed.length + 1⟩

/-- Where the slice of a line ends: with the start of the next line, or with the text when no line
comes after it. -/
def cutStop (table : LineTable) (t : Text) (line : Nat) : Nat :=
  min ((table.lineStart? (line + 1)).getD t.size) t.size

theorem cutStop_of_none (h : table.lineStart? (line + 1) = none) : table.cutStop t line = t.size := by
  rw [cutStop, h, Option.getD_none, Nat.min_self]

theorem cutStop_of_some {next : Nat} (h : table.lineStart? (line + 1) = some next) :
    table.cutStop t line = min next t.size := by
  rw [cutStop, h, Option.getD_some]

/-- A lookup of the line in `t` slices from its start up to where it ends, with both cut to the length
of the text. -/
structure Shows (table : LineTable) (t : Text) (line start : Nat) : Prop where
  ordered : min start t.size ≤ table.cutStop t line
  inRange : table.cutStop t line ≤ t.size
  fails_iff : ∀ fault, table.lineText t line = .error fault ↔
    fault = .slice ∧ (¬t.IsBoundary (min start t.size) ∨
      ∃ next, table.lineStart? (line + 1) = some next ∧ ¬t.IsBoundary (min next t.size))
  shown : ∀ raw, t.slice? (min start t.size) (table.cutStop t line) = some raw →
    table.lineText t line = .ok (some raw.withoutTerminator)

theorem position_eq_of_lineAt (hfits : t.size + 2 ≤ maxOffset)
    (hline : table.lineAt (t.floor offset) = .ok line)
    (hstart : (table.lineStart? line).getD 0 = start) (hordered : start ≤ t.floor offset) :
    table.position t offset = (t.slice? start (t.floor offset)).elim (.error .slice)
      fun passed => .ok ⟨line, passed.length + 1⟩ := by
  have hfloor := (t.isBoundary_floor offset).le_size
  rw [position, Nat.min_eq_left (by omega), hline]
  simp only [bind, Except.bind, hstart, Nat.min_eq_left hordered]
  cases hslice : t.slice? start (t.floor offset) with
  | none => rfl
  | some passed =>
      have hlength := Text.length_le_size_of_slice? hslice
      simp only [ordinal_of_lt (show passed.length < maxOffset by omega)]
      rfl

/-- Whatever the table, a lookup of an offset that stays in order fails for the line start alone. -/
theorem finds_of_lineAt (hfits : t.size + 2 ≤ maxOffset)
    (hline : table.lineAt (t.floor offset) = .ok line)
    (hstart : (table.lineStart? line).getD 0 = start) (hordered : start ≤ t.floor offset) :
    table.Finds t offset line start := by
  have hposition := position_eq_of_lineAt hfits hline hstart hordered
  constructor
  case lineAt => exact hline
  case ordered => exact hordered
  case inRange => exact (t.isBoundary_floor offset).le_size
  case fails_iff =>
    intro fault
    rw [hposition, Text.elim_eq_error_iff, Text.slice?_floor_eq_none_iff hordered]
  case found =>
    intro passed hslice
    rw [hposition, hslice, Option.elim_some]

theorem lineText_eq_of_lineStart? (hstart : table.lineStart? line = some start)
    (hline : line < maxOffset) :
    table.lineText t line = (t.slice? (min start t.size) (table.cutStop t line)).elim (.error .slice)
      fun raw => .ok (some raw.withoutTerminator) := by
  rw [lineText, hstart, cutStop]
  simp only [successor_of_lt hline, bind, Except.bind]
  cases t.slice? (min start t.size) (min ((table.lineStart? (line + 1)).getD t.size) t.size) <;> rfl

/-- The slice of a line is missing for one of the two line starts alone. -/
theorem slice?_line_eq_none_iff (hordered : min start t.size ≤ table.cutStop t line) :
    t.slice? (min start t.size) (table.cutStop t line) = none ↔
      ¬t.IsBoundary (min start t.size) ∨
        ∃ next, table.lineStart? (line + 1) = some next ∧ ¬t.IsBoundary (min next t.size) := by
  rw [Text.slice?_eq_none_iff, and_iff_right hordered, not_and_or]
  cases hnext : table.lineStart? (line + 1) with
  | none =>
      have hend : t.IsBoundary t.size := Text.isBoundary_size (List.prefix_refl t)
      simp [cutStop_of_none hnext, hend]
  | some next => simp [cutStop_of_some hnext]

theorem shows_of_lineStart? (hstart : table.lineStart? line = some start) (hline : line < maxOffset)
    (hordered : ∀ next, table.lineStart? (line + 1) = some next → start ≤ next) :
    table.Shows t line start := by
  have hlookup := lineText_eq_of_lineStart? (t := t) hstart hline
  have hcut : min start t.size ≤ table.cutStop t line := by
    cases hnext : table.lineStart? (line + 1) with
    | none =>
        rw [cutStop_of_none hnext]
        exact Nat.min_le_right _ _
    | some next =>
        have := hordered next hnext
        rw [cutStop_of_some hnext]
        omega
  constructor
  case ordered => exact hcut
  case inRange => exact Nat.min_le_right _ _
  case fails_iff =>
    intro fault
    rw [hlookup, Text.elim_eq_error_iff, slice?_line_eq_none_iff hcut]
  case shown =>
    intro raw hslice
    rw [hlookup, hslice, Option.elim_some]

theorem lineText_eq_none_iff : table.lineText t line = .ok none ↔ table.lineStart? line = none := by
  cases hstart : table.lineStart? line with
  | none =>
      rw [lineText, hstart]
      exact iff_of_true rfl rfl
  | some start =>
      refine iff_of_false (fun h => ?_) (Option.some_ne_none start)
      rw [lineText, hstart] at h
      cases hnext : successor line with
      | error fault =>
          rw [hnext] at h
          cases h
      | ok next =>
          rw [hnext] at h
          simp only [bind, Except.bind] at h
          split at h <;> cases h

theorem lineAt_empty (offset : Nat) : empty.lineAt offset = .ok 1 := by
  have hnone : firstAbove empty.starts offset 0 empty.starts.size (Nat.le_refl _) = 0 :=
    Nat.le_zero.mp (firstAbove_le (Nat.le_refl _) (Nat.le_refl _))
  rw [lineAt, hnone]
  rfl

theorem lineStart?_empty (line : Nat) : empty.lineStart? line = none := by
  rw [lineStart?]
  split
  · rfl
  · rfl

/-- Without lines, columns are counted from the start of the text. -/
theorem exists_position_empty (hfits : t.size + 2 ≤ maxOffset) (offset : Nat) :
    ∃ front, t.slice? 0 (t.floor offset) = some front ∧
      empty.position t offset = .ok ⟨1, front.length + 1⟩ := by
  have hfinds : empty.Finds t offset 1 0 :=
    finds_of_lineAt hfits (lineAt_empty _) (by rw [lineStart?_empty]; rfl) (Nat.zero_le _)
  have hzero : t.IsBoundary 0 := Text.isBoundary_size List.nil_prefix
  obtain ⟨front, hfront⟩ := Option.ne_none_iff_exists'.mp
    (mt (Text.slice?_floor_eq_none_iff hfinds.ordered).mp (not_not_intro hzero))
  exact ⟨front, hfront, hfinds.found front hfront⟩

end LineTable

/-- Lookups with the table of another text fail exactly where a line start lies inside a character
of the text at hand: for an offset the start of its line, for a line its own start or that of the
next one. The table without lines never fails. -/
theorem foreign_lookups_fail_iff (a b : Text) (ha : a.size + 2 ≤ maxOffset)
    (hb : b.size + 2 ≤ maxOffset) :
    let table := LineTable.ofText a
    (∀ offset : UInt32, ∃ line start, table.lineStart? line = some start ∧
      table.Finds b offset.toNat line start) ∧
    (∀ line : UInt32,
      (table.lineText b line.toNat = .ok none ↔
        ¬(1 ≤ line.toNat ∧ line.toNat ≤ table.lineCount)) ∧
      ∀ start, table.lineStart? line.toNat = some start → table.Shows b line.toNat start) ∧
    (∀ offset : UInt32, LineTable.empty.lineAt offset.toNat = .ok 1 ∧
      ∃ front, b.slice? 0 (b.floor offset.toNat) = some front ∧
        LineTable.empty.position b offset.toNat = .ok ⟨1, front.length + 1⟩) ∧
    ∀ line : UInt32, LineTable.empty.lineText b line.toNat = .ok none := by
  intro table
  have hsize : a.size ≤ maxOffset := by omega
  refine ⟨?_, fun line => ⟨?_, ?_⟩, ?_, ?_⟩
  · intro offset
    obtain ⟨hline, ⟨start, hstart, hle⟩, -⟩ := LineTable.exists_lineAt ha (b.floor offset.toNat)
    exact ⟨_, start, hstart, LineTable.finds_of_lineAt hb hline (by rw [hstart]; rfl) hle⟩
  · rw [LineTable.lineText_eq_none_iff, ← LineTable.isSome_lineStart?_iff,
      Option.not_isSome_iff_eq_none]
  · intro start hstart
    have hlast := (LineTable.isSome_lineStart?_iff.mp (Option.isSome_of_eq_some hstart)).2
    rw [LineTable.lineCount_ofText hsize] at hlast
    have hcount := a.count_newline_le_size
    refine LineTable.shows_of_lineStart? hstart (by omega) fun next hnext => ?_
    exact Nat.le_of_lt
      (LineTable.lineStart?_lt (LineTable.pairwise_starts hsize) hstart hnext (Nat.lt_succ_self _))
  · exact fun offset => ⟨LineTable.lineAt_empty _, LineTable.exists_position_empty hb _⟩
  · exact fun line => LineTable.lineText_eq_none_iff.mpr (LineTable.lineStart?_empty _)

/-- The second line of the table starts inside a character of the other text, so offsets behind it
have no position, and the first line has no end. -/
theorem foreign_lookups_inside_character :
    let a : Text := "a\nb".toList
    let b : Text := "xβγ".toList
    let table := LineTable.ofText a
    (a.size + 2 ≤ maxOffset ∧ b.size + 2 ≤ maxOffset) ∧
      (table.Finds b (3 : UInt32).toNat 2 2 ∧
        table.position b (3 : UInt32).toNat = .error .slice) ∧
      (table.lineStart? (1 : UInt32).toNat = some 0 ∧
        table.lineText b (1 : UInt32).toNat = .error .slice) ∧
      table.lineText b (3 : UInt32).toNat = .ok none ∧
      LineTable.empty.lineAt (3 : UInt32).toNat = .ok 1 := by
  intro a b table
  have hfits : a.size + 2 ≤ maxOffset ∧ b.size + 2 ≤ maxOffset := by decide
  obtain ⟨hoffsets, hlines, hempty, -⟩ := foreign_lookups_fail_iff a b hfits.1 hfits.2
  refine ⟨hfits, ?_, ?_, (hlines 3).1.mpr (by decide), (hempty 3).1⟩
  · obtain ⟨line, start, hstart, hfinds⟩ := hoffsets 3
    have hline : table.lineAt (b.floor (3 : UInt32).toNat) = .ok 2 := by decide +kernel
    obtain rfl := Except.ok.inj (hfinds.lineAt.symm.trans hline)
    have hsecond : table.lineStart? 2 = some 2 := by decide
    obtain rfl := Option.some.inj (hstart.symm.trans hsecond)
    exact ⟨hfinds, (hfinds.fails_iff _).mpr ⟨rfl, by decide⟩⟩
  · have hfirst : table.lineStart? (1 : UInt32).toNat = some 0 := by decide
    have hnext : table.lineStart? ((1 : UInt32).toNat + 1) = some 2 := by decide
    refine ⟨hfirst, (((hlines 1).2 0 hfirst).fails_iff _).mpr ⟨rfl, .inr ⟨2, hnext, ?_⟩⟩⟩
    decide

end ParseReport
