import ParseReport.Display.Terminal
import ParseReport.Proofs.Results

/-!
# Plain reports

What an entry writes ends each of its lines. An entry as plain text leaves out the last of these
line ends, a report puts a line end between what two entries write and then leaves out the last, and
a plain terminal adds a line end to each. So a report is its entries with `\n\n` between two of
them, and a terminal shows the same with `\n\n` at the end, whatever texts the entries hold.
-/

namespace ParseReport

theorem Text.dropFinal_concat (t : Text) (c : Char) : (t ++ [c]).dropFinal c = t := by
  rw [dropFinal, if_pos List.getLast?_concat, List.dropLast_concat]

namespace Display

section Lists
variable {α β : Type} {separator : List α} {parts : List (List α)}

/-- A separator after the last part as well. -/
theorem intercalate_append_separator (hparts : parts ≠ []) :
    List.intercalate separator parts ++ separator = parts.flatMap (· ++ separator) := by
  induction parts with
  | nil => exact absurd rfl hparts
  | cons part parts ih =>
      rw [List.flatMap_cons]
      by_cases hnone : parts = []
      · rw [hnone, List.intercalate_singleton]
        exact (List.append_nil _).symm
      · rw [List.intercalate_cons_of_ne_nil hnone, List.append_assoc, ih hnone]

/-- What ends every part belongs to the separator, but for the last part. -/
theorem intercalate_map_append (ending : List α) (hparts : parts ≠ []) :
    List.intercalate separator (parts.map (· ++ ending)) =
      List.intercalate (ending ++ separator) parts ++ ending := by
  have hmap : parts.map (· ++ ending) ≠ [] := mt List.map_eq_nil_iff.mp hparts
  have hended : List.intercalate separator (parts.map (· ++ ending)) ++ separator =
      List.intercalate (ending ++ separator) parts ++ ending ++ separator := by
    rw [intercalate_append_separator hmap, List.append_assoc, intercalate_append_separator hparts,
      List.flatMap_map]
    exact List.flatMap_congr fun part _ => List.append_assoc part ending separator
  exact List.append_cancel_right hended

theorem flatMap_intercalate (f : α → List β) (separator : List α) (parts : List (List α)) :
    (List.intercalate separator parts).flatMap f =
      List.intercalate (separator.flatMap f) (parts.map (List.flatMap f)) := by
  induction parts with
  | nil => rfl
  | cons part parts ih =>
      rw [List.map_cons]
      by_cases hnone : parts = []
      · rw [hnone, List.map_nil, List.intercalate_singleton, List.intercalate_singleton]
      · have hmap : parts.map (List.flatMap f) ≠ [] := mt List.map_eq_nil_iff.mp hnone
        rw [List.intercalate_cons_of_ne_nil hmap, List.intercalate_cons_of_ne_nil hnone,
          List.flatMap_append, List.flatMap_append, ih]

end Lists

/-- Plain text gets one more line end where every line is ended. -/
theorem plainText_append_end {lines : List Line} (hlines : lines ≠ []) :
    plainText lines ++ ['\n'] = lines.flatMap (Line.writeLn false) := by
  have hmap : lines.map (Line.write false) ≠ [] := mt List.map_eq_nil_iff.mp hlines
  rw [plainText, intercalate_append_separator hmap, List.flatMap_map]
  rfl

/-- What an entry writes: its lines, each with its end. -/
def Entry.written (colored : Bool) (filename : Text) (e : Entry) : Text :=
  (e.lines filename).flatMap (Line.writeLn colored)

section Entries
variable {filename : Text} {entries : List Entry}

theorem Entry.render_append_end (e : Entry) (filename : Text) :
    e.render filename ++ ['\n'] = e.written false filename :=
  plainText_append_end (e.lines_ne_nil filename)

theorem reportLines_ne_nil (hentries : entries ≠ []) : reportLines filename entries ≠ [] := by
  obtain ⟨e, entries, rfl⟩ := List.exists_cons_of_ne_nil hentries
  rw [reportLines, List.map_cons]
  by_cases hnone : entries = []
  · rw [hnone, List.map_nil, List.intercalate_singleton]
    exact e.lines_ne_nil filename
  · rw [List.intercalate_cons_of_ne_nil (mt List.map_eq_nil_iff.mp hnone), List.append_assoc]
    exact List.append_ne_nil_of_left_ne_nil (e.lines_ne_nil filename) _

theorem renderReport_append_end (hentries : entries ≠ []) :
    renderReport filename entries ++ ['\n'] =
      List.intercalate ['\n'] (entries.map (Entry.written false filename)) := by
  rw [renderReport, plainText_append_end (reportLines_ne_nil hentries), reportLines,
    flatMap_intercalate, List.map_map]
  rfl

/-- A report is what its entries write with a line end between two of them, less the last line
end. -/
theorem renderReport_eq_dropFinal (filename : Text) (entries : List Entry) :
    renderReport filename entries =
      Text.dropFinal (List.intercalate ['\n'] (entries.map (Entry.written false filename))) '\n' := by
  by_cases hentries : entries = []
  · rw [hentries]
    rfl
  · rw [← renderReport_append_end hentries, Text.dropFinal_concat]

/-- In a report `\n\n` stands between two entries. -/
theorem renderReport_eq_intercalate (filename : Text) (entries : List Entry) :
    renderReport filename entries =
      List.intercalate ['\n', '\n'] (entries.map (·.render filename)) := by
  by_cases hentries : entries = []
  · rw [hentries]
    rfl
  · have hmap : entries.map (·.render filename) ≠ [] := mt List.map_eq_nil_iff.mp hentries
    -- The line end of every entry but the last joins the one that separates it from the next.
    have hwritten : entries.map (Entry.written false filename) =
        (entries.map (·.render filename)).map (· ++ ['\n']) := by
      rw [List.map_map]
      exact List.map_congr_left fun e _ => (e.render_append_end filename).symm
    rw [renderReport_eq_dropFinal, hwritten, intercalate_map_append _ hmap, Text.dropFinal_concat]
    rfl

theorem Entry.emit_false (filename : Text) (e : Entry) :
    e.emit false filename = e.render filename ++ ['\n', '\n'] := by
  have hwritten : e.emit false filename = e.written false filename ++ ['\n'] := rfl
  rw [hwritten, ← e.render_append_end, List.append_assoc]
  rfl

theorem emitAll_false (hentries : entries ≠ []) :
    emitAll false filename entries = renderReport filename entries ++ ['\n', '\n'] := by
  have hmap : entries.map (·.render filename) ≠ [] := mt List.map_eq_nil_iff.mp hentries
  rw [renderReport_eq_intercalate, intercalate_append_separator hmap, List.flatMap_map, emitAll]
  exact List.flatMap_congr fun e _ => e.emit_false filename

end Entries

end Display

open Display

section Diagnostics
variable {diagnostics : List Diagnostic} {filename : Text}

/-- Some diagnostics can be shown if each has an entry, and what is shown are these entries. -/
theorem Diagnostic.mapM_entry_eq_ok_iff {entries : List Entry} :
    diagnostics.mapM Diagnostic.entry = .ok entries ↔
      diagnostics.map Diagnostic.entry = entries.map .ok := by
  rw [mapM_eq_ok_iff, ← List.forall₂_eq_eq_eq, List.forall₂_map_left_iff,
    List.forall₂_map_right_iff]

/-- Entries are rendered where they are found, so that the first fault is the same. -/
theorem Diagnostic.mapM_render (diagnostics : List Diagnostic) (filename : Text) :
    diagnostics.mapM (Diagnostic.render · filename) =
      (diagnostics.mapM Diagnostic.entry).map (List.map (·.render filename)) := by
  induction diagnostics with
  | nil => rfl
  | cons d diagnostics ih =>
      rw [List.mapM_cons, List.mapM_cons, ih, Diagnostic.render]
      cases d.entry with
      | error fault => rfl
      | ok e => cases diagnostics.mapM Diagnostic.entry <;> rfl

theorem Diagnostic.renderAll_eq_intercalate (diagnostics : List Diagnostic) (filename : Text) :
    Diagnostic.renderAll diagnostics filename =
      (diagnostics.mapM (Diagnostic.render · filename)).map
        (List.intercalate ['\n', '\n']) := by
  rw [Diagnostic.mapM_render, Diagnostic.renderAll]
  cases diagnostics.mapM Diagnostic.entry with
  | error fault => rfl
  | ok entries => exact congrArg Except.ok (renderReport_eq_intercalate filename entries)

theorem Diagnostic.emitAll_false (hdiagnostics : diagnostics ≠ []) (filename : Text) :
    Diagnostic.emitAll diagnostics false filename =
      (Diagnostic.renderAll diagnostics filename).map (· ++ ['\n', '\n']) := by
  rw [Diagnostic.emitAll, Diagnostic.renderAll]
  cases hentries : diagnostics.mapM Diagnostic.entry with
  | error fault => rfl
  | ok entries =>
      have hne : entries ≠ [] := by
        rintro rfl
        exact hdiagnostics (List.map_eq_nil_iff.mp (Diagnostic.mapM_entry_eq_ok_iff.mp hentries))
      exact congrArg Except.ok (Display.emitAll_false hne)

end Diagnostics

theorem Failure.emitSummary_false (f : Failure) : f.emitSummary false = f.summary ++ ['\n'] := by
  rw [Failure.emitSummary, Line.writeLn, Line.write_false]
  exact congrArg (· ++ ['\n']) (List.append_nil _)

/-- A report is its entries as plain text with `\n\n` between two of them. An output without
colours gets nothing for no diagnostics and otherwise the report and `\n\n`, and for a failure with
diagnostics the report, `\n\n`, the summary and `\n`. What the texts in them are does not matter.
A diagnostic that cannot be located is the same fault in each of these. -/
theorem plain_reports_agree (diagnostics : List Diagnostic) (filename : Text) (mode : ColorMode)
    (isTerminal : Bool) (hplain : mode.resolve isTerminal = false) :
    Diagnostic.renderAll diagnostics filename =
        (diagnostics.mapM (Diagnostic.render · filename)).map
          (List.intercalate ['\n', '\n']) ∧
      Diagnostic.emitAll diagnostics (mode.resolve isTerminal) filename =
        (if diagnostics = [] then .ok []
          else (Diagnostic.renderAll diagnostics filename).map (· ++ ['\n', '\n'])) ∧
      ∀ f : Failure, f.diagnostics ≠ [] → f.emit (mode.resolve isTerminal) =
        f.render.map (· ++ ['\n', '\n'] ++ f.summary ++ ['\n']) := by
  rw [hplain]
  refine ⟨Diagnostic.renderAll_eq_intercalate diagnostics filename, ?_, ?_⟩
  · by_cases hnone : diagnostics = []
    · rw [if_pos hnone, hnone]
      rfl
    · rw [if_neg hnone]
      exact Diagnostic.emitAll_false hnone filename
  · intro f hsome
    rw [Failure.emit, Diagnostic.emitAll_false hsome, f.emitSummary_false, Failure.render]
    cases Diagnostic.renderAll f.diagnostics f.filename with
    | error fault => rfl
    | ok report => exact congrArg Except.ok (List.append_assoc _ _ _).symm

/-- A filename, a message and a hint that end in line ends, and an excerpt cut from a line that ends
in `\r\n`. -/
theorem plain_report_with_line_ends :
    let worry : Diagnostic := ⟨⟨.adHoc "odd\n".toList, some "\n".toList, none⟩, .worry⟩
    let place : Anchor := .attached "a)\r\n".toList ⟨1, 2⟩
    let regret : Diagnostic := ⟨.about (.adHoc "stray".toList) place, .regret⟩
    let failure : Failure := ⟨"f\n".toList, [worry, regret], .concerns⟩
    ColorMode.auto.resolve false = false ∧ failure.diagnostics ≠ [] ∧
      failure.emit (ColorMode.auto.resolve false) = .ok
        ("worry[adhoc]: odd\n\n  hint: \n\n  --> f\n\n\n".toList ++
          "sorry[adhoc]: stray\n --> f\n:1:2\n  |\n1 | a)\n  |  ^".toList ++ ['\n', '\n'] ++
          "aborting due to 1 sorry, 1 worry in f\n".toList ++ ['\n']) := by
  intro worry place regret failure
  have hplain : ColorMode.auto.resolve false = false := rfl
  have hsome : failure.diagnostics ≠ [] := List.cons_ne_nil _ _
  obtain ⟨-, -, hemit⟩ :=
    plain_reports_agree failure.diagnostics failure.filename .auto false hplain
  refine ⟨hplain, hsome, (hemit failure hsome).trans ?_⟩
  decide +kernel

end ParseReport
