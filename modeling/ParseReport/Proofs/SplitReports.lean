import ParseReport.Proofs.PlainReports
import ParseReport.Proofs.ReportLines

/-!
# Reports cut back into entries

Between two entries of a report stands `\n\n`. It stands nowhere else if no text in them has a line
end, since an entry has no empty line and neither begins nor ends with a line end. So a report is
cut there into just the entries that it was put together from.
-/

namespace ParseReport

namespace Text

/-- The parts between one `\n\n` and the next, when `part` is what was read of the first of them. -/
def partsFrom (part : Text) : Text → List Text
  | [] => [part]
  | '\n' :: '\n' :: t => part :: partsFrom [] t
  | c :: t => partsFrom (part ++ [c]) t

/-- The parts that come of cutting a text at every `\n\n`. -/
def parts (t : Text) : List Text := partsFrom [] t

section Parts
variable {row : Text} {rows : List Text}

theorem partsFrom_append (hrow : '\n' ∉ row) (part rest : Text) :
    partsFrom part (row ++ rest) = partsFrom (part ++ row) rest := by
  induction row generalizing part with
  | nil => rw [List.append_nil, List.nil_append]
  | cons c row ih =>
      obtain ⟨hc, hrow⟩ := not_or.mp (mt List.mem_cons.mpr hrow)
      rw [List.cons_append, partsFrom, ih hrow, List.append_assoc, List.singleton_append]
      intro t h
      exact fun _ => hc h.symm

/-- A line end before another character cuts nothing. -/
theorem partsFrom_newline {c : Char} (hc : c ≠ '\n') (part t : Text) :
    partsFrom part ('\n' :: c :: t) = partsFrom (part ++ ['\n']) (c :: t) := by
  rw [partsFrom]
  intro t' _ h
  exact hc (List.cons.inj h).1

/-- A block is some lines, none of them empty. -/
structure IsBlock (rows : List Text) : Prop where
  ne_nil : rows ≠ []
  shown : ∀ row ∈ rows, row ≠ [] ∧ '\n' ∉ row

theorem IsBlock.tail {row : Text} (h : IsBlock (row :: rows)) (hrows : rows ≠ []) : IsBlock rows :=
  ⟨hrows, fun row' hrow' => h.shown row' (List.mem_cons_of_mem row hrow')⟩

/-- A block begins with a character that it shows. -/
theorem IsBlock.exists_head (h : IsBlock rows) :
    ∃ c t, List.intercalate ['\n'] rows = c :: t ∧ c ≠ '\n' := by
  obtain ⟨row, rows, rfl⟩ := List.exists_cons_of_ne_nil h.ne_nil
  obtain ⟨hrow, hline⟩ := h.shown row List.mem_cons_self
  obtain ⟨c, row, rfl⟩ := List.exists_cons_of_ne_nil hrow
  have hc : c ≠ '\n' := by
    rintro rfl
    exact hline List.mem_cons_self
  by_cases hnone : rows = []
  · exact ⟨c, row, by rw [hnone, List.intercalate_singleton], hc⟩
  · exact ⟨c, _, by rw [List.intercalate_cons_of_ne_nil hnone]; rfl, hc⟩

/-- Nothing is cut within a block, whatever comes after it. -/
theorem IsBlock.partsFrom_append (h : IsBlock rows) (part rest : Text) :
    partsFrom part (List.intercalate ['\n'] rows ++ rest) =
      partsFrom (part ++ List.intercalate ['\n'] rows) rest := by
  induction rows generalizing part with
  | nil => exact absurd rfl h.ne_nil
  | cons row rows ih =>
      obtain ⟨-, hline⟩ := h.shown row List.mem_cons_self
      by_cases hnone : rows = []
      · rw [hnone, List.intercalate_singleton]
        exact Text.partsFrom_append hline part rest
      · have hrows := h.tail hnone
        obtain ⟨c, t, hhead, hc⟩ := hrows.exists_head
        have hnext : ['\n'] ++ List.intercalate ['\n'] rows ++ rest = '\n' :: c :: (t ++ rest) := by
          rw [hhead]
          rfl
        calc
          partsFrom part (List.intercalate ['\n'] (row :: rows) ++ rest) =
              partsFrom (part ++ row) ('\n' :: c :: (t ++ rest)) := by
            rw [List.intercalate_cons_of_ne_nil hnone, List.append_assoc, List.append_assoc,
              Text.partsFrom_append hline, ← List.append_assoc, hnext]
          _ = partsFrom (part ++ row ++ ['\n']) (List.intercalate ['\n'] rows ++ rest) := by
            rw [partsFrom_newline hc, hhead]
            rfl
          _ = partsFrom (part ++ List.intercalate ['\n'] (row :: rows)) rest := by
            rw [ih hrows, List.intercalate_cons_of_ne_nil hnone]
            simp only [List.append_assoc]

/-- Blocks that are put together with `\n\n` between two of them come apart again. -/
theorem parts_intercalate {blocks : List (List Text)} (hsome : blocks ≠ [])
    (hblocks : ∀ rows ∈ blocks, IsBlock rows) :
    parts (List.intercalate ['\n', '\n'] (blocks.map (List.intercalate ['\n']))) =
      blocks.map (List.intercalate ['\n']) := by
  induction blocks with
  | nil => exact absurd rfl hsome
  | cons rows blocks ih =>
      obtain ⟨hrows, hblocks⟩ := List.forall_mem_cons.mp hblocks
      rw [List.map_cons, parts]
      by_cases hnone : blocks = []
      · have hall := hrows.partsFrom_append [] []
        rw [List.append_nil] at hall
        rw [hnone, List.map_nil, List.intercalate_singleton, hall]
        rfl
      · have hmap : blocks.map (List.intercalate ['\n']) ≠ [] := mt List.map_eq_nil_iff.mp hnone
        rw [List.intercalate_cons_of_ne_nil hmap, List.append_assoc, hrows.partsFrom_append]
        exact congrArg _ (ih hnone hblocks)

end Parts

end Text

open Display

/-- No text of the diagnostic has a line end. -/
structure Diagnostic.HasNoLineEnd (d : Diagnostic) : Prop where
  kind : '\n' ∉ d.kind
  message : '\n' ∉ d.message
  hint : ∀ hint ∈ d.hint, '\n' ∉ hint

section Entries
variable {d : Diagnostic} {e : Entry} {filename : Text}

/-- The entry of such a diagnostic has no line end either, since an excerpt is one line. -/
theorem Diagnostic.HasNoLineEnd.entry (h : d.HasNoLineEnd) (hfits : d.Fits)
    (hentry : d.entry = .ok e) :
    e.Avoids '\n' ∧ e.hint = d.hint ∧ (e.location = none ↔ d.anchor = none) := by
  obtain ⟨place, hplace, hnone, hexcerpt⟩ := hfits.exists_location
  obtain rfl := Except.ok.inj ((entry_eq hplace).symm.trans hentry)
  exact ⟨⟨h.kind, h.message, h.hint, hexcerpt⟩, rfl, hnone⟩

theorem Display.Entry.isBlock_rows (he : e.Avoids '\n') (hfilename : '\n' ∉ filename) :
    Text.IsBlock (e.rows filename) :=
  ⟨e.rows_ne_nil filename, fun row hrow =>
    ⟨ne_nil_of_mem_rows hrow, newline_not_mem_rows he hfilename row hrow⟩⟩

end Entries

/-- Where no text of the diagnostics has a line end, cutting their report at every `\n\n` gives
back the texts of the diagnostics. Each of these has one line, one more for a hint, and one more
without an anchor or four with one, and none of them is empty. -/
theorem report_splits_back {diagnostics : List Diagnostic} {filename : Text}
    (hsome : diagnostics ≠ []) (hfits : ∀ d ∈ diagnostics, d.Fits)
    (hlines : ∀ d ∈ diagnostics, d.HasNoLineEnd) (hfilename : '\n' ∉ filename) :
    ∃ report texts, Diagnostic.renderAll diagnostics filename = .ok report ∧
      report.parts = texts ∧
      List.Forall₂ (fun d text => d.render filename = .ok text ∧
          (text.splitOn '\n').length =
            1 + d.hint.toList.length + (if d.anchor = none then 1 else 4) ∧
          [] ∉ text.splitOn '\n')
        diagnostics texts := by
  obtain ⟨entries, hentries⟩ := exists_mapM_eq_ok fun d hd => (hfits d hd).exists_entry
  have hpairs : List.Forall₂ (fun d e => (d.Fits ∧ d.HasNoLineEnd) ∧ d.entry = .ok e)
      diagnostics entries :=
    (List.forall₂_and_left _ _).mpr
      ⟨fun d hd => ⟨hfits d hd, hlines d hd⟩, mapM_eq_ok_iff.mp hentries⟩
  have hblocks : ∀ e ∈ entries, Text.IsBlock (e.rows filename) := by
    intro e he
    obtain ⟨d, hd, hentry⟩ := exists_of_mem_mapM hentries he
    exact Entry.isBlock_rows ((hlines d hd).entry (hfits d hd) hentry).1 hfilename
  have hentriesSome : entries ≠ [] := by
    rintro rfl
    exact hsome (List.forall₂_nil_right_iff.mp hpairs)
  refine ⟨renderReport filename entries, entries.map (·.render filename), ?_, ?_, ?_⟩
  · rw [Diagnostic.renderAll, hentries]
    rfl
  · have hparts := Text.parts_intercalate (mt List.map_eq_nil_iff.mp hentriesSome)
      (List.forall_mem_map.mpr hblocks)
    rw [List.map_map] at hparts
    rw [renderReport_eq_intercalate]
    exact hparts
  · rw [List.forall₂_map_right_iff]
    refine hpairs.imp ?_
    rintro d e ⟨⟨hd, hline⟩, hentry⟩
    obtain ⟨havoid, hhint, hplace⟩ := hline.entry hd hentry
    refine ⟨?_, ?_, ?_⟩
    · rw [Diagnostic.render, hentry]
      rfl
    · rw [Entry.splitOn_render havoid hfilename, Entry.length_rows, hhint]
      simp only [hplace]
    · rw [Entry.splitOn_render havoid hfilename]
      exact fun hmem => Entry.ne_nil_of_mem_rows hmem rfl

/-- An inverted span with a hint, nothing but an empty hint, and a detached place past the end. -/
theorem report_of_three_splits_back :
    let t : Text := "(\n\tβ)\r\n".toList
    let stray : Diagnostic := ⟨.about (.extraCloser ')') (.attached t ⟨5, 2⟩), .regret⟩
    let bare : Diagnostic := ⟨⟨.adHoc [], some [], none⟩, .worry⟩
    let gone : Anchor := .detached ⟨99, 99⟩ ⟨3, 1, [], 1⟩
    let late : Diagnostic := ⟨.about (.earlyEnd none) gone, .panic⟩
    let diagnostics := [stray, bare, late]
    (diagnostics ≠ [] ∧ (∀ d ∈ diagnostics, d.Fits) ∧ (∀ d ∈ diagnostics, d.HasNoLineEnd) ∧
      '\n' ∉ ['f']) ∧
      ∃ report texts, Diagnostic.renderAll diagnostics ['f'] = .ok report ∧
        report.parts = texts ∧ texts.map (fun text => (text.splitOn '\n').length) = [6, 3, 5] := by
  intro t stray bare gone late diagnostics
  have hsize : t.size + 2 ≤ maxOffset := by decide
  have hfits : ∀ d ∈ diagnostics, d.Fits := by
    refine List.forall_mem_cons.mpr ⟨?_, List.forall_mem_cons.mpr ⟨?_,
      List.forall_mem_singleton.mpr ?_⟩⟩
    · rintro anchor ⟨⟩
      exact ⟨t, hsize, .attached _⟩
    · rintro anchor ⟨⟩
    · rintro anchor ⟨⟩
      exact ⟨t, hsize, .detach (.attached ⟨99, 99⟩) (by decide +kernel)⟩
  have hlines : ∀ d ∈ diagnostics, d.HasNoLineEnd := by
    refine List.forall_mem_cons.mpr ⟨?_, List.forall_mem_cons.mpr ⟨?_,
      List.forall_mem_singleton.mpr ?_⟩⟩ <;> exact ⟨by decide, by decide, by decide⟩
  have hsome : diagnostics ≠ [] := List.cons_ne_nil _ _
  have hfilename : '\n' ∉ ['f'] := by decide
  obtain ⟨report, texts, hreport, hparts, hpairs⟩ :=
    report_splits_back hsome hfits hlines hfilename
  refine ⟨⟨hsome, hfits, hlines, hfilename⟩, report, texts, hreport, hparts, ?_⟩
  change List.Forall₂ _ [stray, bare, late] texts at hpairs
  rcases hpairs with _ | ⟨⟨-, hfirst, -⟩, _ | ⟨⟨-, hsecond, -⟩, _ | ⟨⟨-, hthird, -⟩, ⟨⟩⟩⟩⟩
  rw [List.map_cons, List.map_cons, List.map_singleton, hfirst, hsecond, hthird]
  rfl

end ParseReport
