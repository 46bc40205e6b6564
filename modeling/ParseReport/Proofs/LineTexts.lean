import ParseReport.Proofs.Composition
import ParseReport.Proofs.Overflow
import ParseReport.Proofs.RawLines

/-!
# Lines and what ends them

A lookup by number shows the raw lines of a text in order, each less one `\r` at its end. With that
`\r` and the `\n` behind it put back, the lines make up the text again. The lines that a check counts
leave out a last line that is empty.
-/

namespace ParseReport

namespace Text

/-- The `\r` that a lookup leaves out of a raw line. -/
def droppedReturn (raw : Text) : Text := if raw.getLast? = some '\r' then ['\r'] else []

theorem dropFinal_append_droppedReturn (raw : Text) :
    raw.dropFinal '\r' ++ raw.droppedReturn = raw := by
  unfold droppedReturn
  rcases raw.dropFinal_cases '\r' with ⟨hlast, hraw⟩ | ⟨hlast, hraw⟩
  · rw [if_pos hlast]
    exact hraw.symm
  · rw [if_neg hlast, hraw]
    exact List.append_nil raw

theorem droppedReturn_cases (raw : Text) :
    raw.droppedReturn = ['\r'] ∧ raw.getLast? = some '\r' ∨
      raw.droppedReturn = [] ∧ raw.getLast? ≠ some '\r' := by
  unfold droppedReturn
  by_cases hlast : raw.getLast? = some '\r'
  · exact .inl ⟨if_pos hlast, hlast⟩
  · exact .inr ⟨if_neg hlast, hlast⟩

/-- What follows the raw lines in order: a `\n` behind each, and nothing behind the last. -/
def lineEnds (t : Text) : List Text := List.replicate (t.count '\n') ['\n'] ++ [[]]

theorem lineEnds_cases {t ending : Text} {i : Nat} (h : t.lineEnds[i]? = some ending) :
    i < t.count '\n' ∧ ending = ['\n'] ∨ i = t.count '\n' ∧ ending = [] := by
  rw [lineEnds] at h
  by_cases hi : i < t.count '\n'
  · rw [List.getElem?_append_left (by simpa using hi), List.getElem?_replicate, if_pos hi] at h
    exact .inl ⟨hi, (Option.some.inj h).symm⟩
  · rw [List.getElem?_append_right (by simpa using hi), List.length_replicate,
      List.getElem?_singleton] at h
    split at h
    · exact .inr ⟨by omega, (Option.some.inj h).symm⟩
    · cases h

/-- The raw lines with what follows each of them make up the text. -/
theorem flatten_zipWith_lineEnds (t : Text) :
    (List.zipWith (· ++ ·) (t.splitOn '\n') t.lineEnds).flatten = t := by
  have hends : (t.filter (· == '\n')).map (fun c => [c]) ++ [[]] = t.lineEnds := by
    rw [List.filter_beq, List.map_replicate, lineEnds]
  rw [List.splitOn_eq_splitOnP, ← hends]
  exact List.splitOnP_spec t

/-- Every raw line is that of a cut. -/
theorem exists_cut_of_getElem? {t raw : Text} {i : Nat} (h : (t.splitOn '\n')[i]? = some raw) :
    ∃ front back, t = front ++ back ∧ front.count '\n' = i ∧ raw = rawLine front back := by
  have hi : i < (t.splitOn '\n').length := (List.getElem?_eq_some_iff.mp h).1
  rw [length_splitOn] at hi
  obtain ⟨front, back, rfl, rfl⟩ := exists_front_of_le_count (Nat.le_of_lt_succ hi)
  rw [getElem?_splitOn_count] at h
  exact ⟨front, back, rfl, rfl, (Option.some.inj h).symm⟩

theorem newline_not_mem_of_getElem? {t raw : Text} {i : Nat}
    (h : (t.splitOn '\n')[i]? = some raw) : '\n' ∉ raw := by
  obtain ⟨front, back, -, -, rfl⟩ := exists_cut_of_getElem? h
  exact newline_not_mem_rawLine front back

/-- What a lookup shows of each raw line, with what it leaves out. -/
def endedLines (t : Text) : List (Text × Text) :=
  List.zipWith (fun (raw ending : Text) => (raw.dropFinal '\r', raw.droppedReturn ++ ending))
    (t.splitOn '\n') t.lineEnds

theorem length_endedLines (t : Text) : t.endedLines.length = t.count '\n' + 1 := by
  rw [endedLines, List.length_zipWith, length_splitOn, lineEnds, List.length_append,
    List.length_replicate, List.length_singleton, Nat.min_self]

theorem flatMap_endedLines (t : Text) : (t.endedLines.flatMap fun row => row.1 ++ row.2) = t := by
  rw [endedLines, List.flatMap_def, List.map_zipWith]
  calc
    (List.zipWith (fun (raw ending : Text) => raw.dropFinal '\r' ++ (raw.droppedReturn ++ ending))
        (t.splitOn '\n') t.lineEnds).flatten
      = (List.zipWith (· ++ ·) (t.splitOn '\n') t.lineEnds).flatten := by
        simp only [← List.append_assoc, dropFinal_append_droppedReturn]
    _ = t := t.flatten_zipWith_lineEnds

/-- The lines that are counted leave out a last line that is empty. -/
theorem lineCount_eq (t : Text) :
    t.lineCount = if t = [] ∨ t.getLast? = some '\n' then t.count '\n' else t.count '\n' + 1 := by
  rw [lineCount, foldl_countLine]
  by_cases hnone : t = [] <;> by_cases hlast : t.getLast? = some '\n' <;> simp [hnone, hlast]

end Text

namespace LineTable
variable {t : Text}

theorem lineCount_ofText (hsize : t.size ≤ maxOffset) :
    (ofText t).lineCount = t.count '\n' + 1 := by
  rw [lineCount, ofText_eq hsize, List.size_toArray, Text.length_lineStarts]

/-- A lookup shows the raw line of that number. -/
theorem lineText_of_getElem? (hfits : t.size + 2 ≤ maxOffset) {i : Nat} {raw : Text}
    (h : (t.splitOn '\n')[i]? = some raw) :
    (ofText t).lineText t (i + 1) = .ok (some (raw.dropFinal '\r')) := by
  have hcount := t.count_newline_le_size
  obtain ⟨front, back, rfl, rfl, rfl⟩ := Text.exists_cut_of_getElem? h
  rw [List.count_append] at hcount
  rw [lineText_eq (by omega) rfl (by omega), Text.withoutTerminator_cut]

/-- A line is found for the numbers from one up to the number of lines, and for no other. -/
theorem exists_lineText (hfits : t.size + 2 ≤ maxOffset) (line : Nat) :
    ∃ found, (ofText t).lineText t line = .ok found ∧
      (found.isSome ↔ 1 ≤ line ∧ line ≤ t.count '\n' + 1) ∧ ∀ shown ∈ found, '\n' ∉ shown := by
  by_cases hexists : 1 ≤ line ∧ line ≤ t.count '\n' + 1
  · obtain ⟨i, rfl⟩ : ∃ i, line = i + 1 := ⟨line - 1, by omega⟩
    have hi : i < (t.splitOn '\n').length := by
      rw [Text.length_splitOn]
      omega
    have hraw := List.getElem?_eq_getElem hi
    refine ⟨_, lineText_of_getElem? hfits hraw, iff_of_true rfl hexists, ?_⟩
    rintro shown ⟨⟩ hmem
    exact Text.newline_not_mem_of_getElem? hraw ((Text.dropFinal_prefix_self _ _).subset hmem)
  · refine ⟨none, ?_, iff_of_false Bool.false_ne_true hexists, nofun⟩
    rw [lineText, lineStart?_eq_none (by omega) (by omega)]
    rfl

/-- `shown` is what a lookup of the line shows of its raw line, and `ending` is what stands between
it and the next line. -/
structure EndsWith (t : Text) (line : Nat) (shown ending : Text) : Prop where
  shows : (ofText t).lineText t line = .ok (some shown)
  inner : line < (ofText t).lineCount → ending = ['\n'] ∨ ending = ['\r', '\n']
  last : line = (ofText t).lineCount → ending = [] ∨ ending = ['\r']
  raw : ∃ raw : Text, (t.splitOn '\n')[line - 1]? = some raw ∧ raw = shown ++ raw.droppedReturn ∧
    ('\r' ∈ ending ↔ raw.getLast? = some '\r')

theorem endsWith_of_getElem? (hfits : t.size + 2 ≤ maxOffset) {i : Nat} {row : Text × Text}
    (h : t.endedLines[i]? = some row) : EndsWith t (i + 1) row.1 row.2 := by
  obtain ⟨raw, ending, hraw, hending, rfl⟩ := List.getElem?_zipWith_eq_some.mp h
  have hcount : (ofText t).lineCount = t.count '\n' + 1 := lineCount_ofText (by omega)
  constructor
  case shows => exact lineText_of_getElem? hfits hraw
  case inner =>
    intro hinner
    obtain ⟨-, rfl⟩ | ⟨hi, -⟩ := Text.lineEnds_cases hending
    · obtain ⟨hreturn, -⟩ | ⟨hnone, -⟩ := raw.droppedReturn_cases
      · exact .inr (by rw [hreturn]; rfl)
      · exact .inl (by rw [hnone]; rfl)
    · omega
  case last =>
    intro hlast
    obtain ⟨hi, -⟩ | ⟨-, rfl⟩ := Text.lineEnds_cases hending
    · omega
    · obtain ⟨hreturn, -⟩ | ⟨hnone, -⟩ := raw.droppedReturn_cases
      · exact .inr (by rw [hreturn]; rfl)
      · exact .inl (by rw [hnone]; rfl)
  case raw =>
    refine ⟨raw, hraw, raw.dropFinal_append_droppedReturn.symm, ?_⟩
    have hending : '\r' ∉ ending := by
      obtain ⟨-, rfl⟩ | ⟨-, rfl⟩ := Text.lineEnds_cases hending <;> decide
    rw [List.mem_append, or_iff_left hending]
    obtain ⟨hreturn, hlast⟩ | ⟨hnone, hlast⟩ := raw.droppedReturn_cases
    · rw [hreturn]
      exact iff_of_true (List.mem_singleton_self _) hlast
    · rw [hnone]
      exact iff_of_false List.not_mem_nil hlast

end LineTable

/-- The lines of a text, each with what ends it, make up the text, and the lookups by number show
them. A check that succeeds counts the same lines, but for a last one that is empty. -/
theorem lines_rebuild_text (t : Text) (hfits : t.size + 2 ≤ maxOffset) :
    let table := LineTable.ofText t
    (∀ line : UInt32, ∃ found, table.lineText t line.toNat = .ok found ∧
      (found.isSome ↔ 1 ≤ line.toNat ∧ line.toNat ≤ table.lineCount) ∧
      ∀ shown ∈ found, '\n' ∉ shown) ∧
    (∃ rows : List (Text × Text), rows.length = table.lineCount ∧
      (rows.flatMap fun row => row.1 ++ row.2) = t ∧
      ∀ i row, rows[i]? = some row → LineTable.EndsWith t (i + 1) row.1 row.2) ∧
    table.lineCount = t.count '\n' + 1 ∧
    t.lineCount = (if t = [] ∨ t.getLast? = some '\n' then table.lineCount - 1
      else table.lineCount) ∧
    ∀ config outcome summary, check t config = .ok outcome → outcome.result = .ok summary →
      summary.lines = t.lineCount := by
  intro table
  have hcount : table.lineCount = t.count '\n' + 1 := LineTable.lineCount_ofText (by omega)
  refine ⟨?_, ⟨t.endedLines, ?_, t.flatMap_endedLines, ?_⟩, hcount, ?_, ?_⟩
  · intro line
    rw [hcount]
    exact LineTable.exists_lineText hfits line.toNat
  · rw [hcount, Text.length_endedLines]
  · exact fun i row hrow => LineTable.endsWith_of_getElem? hfits hrow
  · rw [hcount, Text.lineCount_eq, Nat.add_sub_cancel]
  · intro config outcome summary hcheck hresult
    obtain ⟨-, rfl⟩ :=
      Check.eq_of_mem_summary? ((Check.result_eq_ok_iff hfits hcheck).mp hresult)
    rfl

/-- A `\r\n` behind a `\r`, an empty line, and a last line that ends in a `\r` of its own. -/
theorem lines_rebuild_mixed_ends :
    let t : Text := "a\r\r\n\nβ\r".toList
    t.size + 2 ≤ maxOffset ∧
      (∃ rows : List (Text × Text), rows.length = 3 ∧
        (rows.flatMap fun row => row.1 ++ row.2) = t ∧
        ∃ ending, rows[0]? = some ("a\r".toList, ending) ∧
          LineTable.EndsWith t 1 "a\r".toList ending) ∧
      (LineTable.ofText t).lineText t 4 = .ok none ∧
      ∃ outcome, check t ⟨['f'], 1⟩ = .ok outcome ∧ outcome.result = .ok ⟨0, 3⟩ ∧
        t.lineCount = 3 := by
  intro t
  have hfits : t.size + 2 ≤ maxOffset := by decide
  obtain ⟨hfound, ⟨rows, hlength, htext, hrows⟩, hcount, -, hsummary⟩ := lines_rebuild_text t hfits
  have hthree : (LineTable.ofText t).lineCount = 3 := hcount
  refine ⟨hfits, ⟨rows, hlength.trans hthree, htext, ?_⟩, ?_, ?_⟩
  · have hrow : rows[0]? = some rows[0] := List.getElem?_eq_getElem (by omega)
    have hends := hrows 0 _ hrow
    have hfirst : (LineTable.ofText t).lineText t 1 = .ok (some "a\r".toList) := by decide +kernel
    have hshown : rows[0].1 = "a\r".toList :=
      Option.some.inj (Except.ok.inj (hends.shows.symm.trans hfirst))
    rw [hshown] at hends
    exact ⟨rows[0].2, by rw [hrow, ← hshown], hends⟩
  · obtain ⟨found, hlookup, hsome, -⟩ := hfound 4
    rw [hthree] at hsome
    have hnone : found = none := by
      rw [← Option.not_isSome_iff_eq_none, hsome]
      decide
    rwa [hnone] at hlookup
  · obtain ⟨outcome, hcheck, hresult⟩ : Check.Accepts ⟨['f'], 1⟩ t ⟨0, 3⟩ :=
      (Check.accepts_iff hfits).mpr ⟨by decide, rfl⟩
    exact ⟨outcome, hcheck, hresult, (hsummary _ _ _ hcheck hresult).symm⟩

end ParseReport
