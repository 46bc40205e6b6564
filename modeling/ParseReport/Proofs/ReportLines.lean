import Mathlib.Data.List.Basic
import ParseReport.Display.Report
import ParseReport.Proofs.Anchors

/-!
# The lines of an entry

The layout of an entry writes visible characters, blanks and tabs. Any other character in its lines
comes from a text that the entry shows. So an entry whose texts have no line end is shown in just
the lines of its layout, and none of these is empty.
-/

namespace ParseReport

namespace Display

section Layout
variable {c : Char}

/-- A character that the layout itself may write. -/
def isLayout (c : Char) : Bool := ' ' ≤ c ∨ c = '\t'

theorem ne_of_isLayout (hc : isLayout c = false) {d : Char} (hd : isLayout d = true) :
    c ≠ d := by
  rintro rfl
  rw [hd] at hc
  cases hc

theorem not_mem_of_all_isLayout (hc : isLayout c = false) {t : Text}
    (ht : t.all isLayout = true) : c ∉ t :=
  fun hmem => ne_of_isLayout hc (List.all_eq_true.mp ht c hmem) rfl

theorem isLayout_of_isDigit (h : c.isDigit = true) : isLayout c = true := by
  have hdigit : '0' ≤ c := by
    simp only [Char.isDigit, Bool.and_eq_true, decide_eq_true_eq] at h
    exact h.1
  have hblank : ' ' ≤ c := Char.le_trans (show ' ' ≤ '0' by decide) hdigit
  simp [isLayout, hblank]

theorem not_mem_decimal (hc : isLayout c = false) (n : Nat) : c ∉ Text.decimal n := by
  apply not_mem_of_all_isLayout hc
  rw [List.all_eq_true]
  exact fun d hd => isLayout_of_isDigit (Nat.isDigit_of_mem_toDigits (by decide) (by decide) hd)

theorem not_mem_margin (hc : isLayout c = false) (excerpt : Text) (columns : Nat) :
    c ∉ Entry.margin excerpt columns := by
  apply not_mem_of_all_isLayout hc
  rw [List.all_eq_true]
  intro d hd
  rcases List.mem_append.mp hd with hkept | hpadding
  · obtain ⟨e, -, rfl⟩ := List.mem_map.mp hkept
    split <;> decide
  · rw [List.eq_of_mem_replicate hpadding]
    decide

theorem not_mem_label (hc : isLayout c = false) (severity : Severity) : c ∉ severity.label :=
  not_mem_of_all_isLayout hc (by cases severity <;> decide)

theorem not_mem_counted (hc : isLayout c = false) (severity : Severity) (count : Nat) :
    c ∉ severity.counted count := by
  have hplural : c ∉ severity.plural :=
    not_mem_of_all_isLayout hc (by cases severity <;> decide)
  have hblank : c ≠ ' ' := ne_of_isLayout hc (by decide)
  rw [Severity.counted]
  split <;> simp [not_mem_decimal hc, not_mem_label hc, hplural, hblank]

/-- The character is in none of the texts that the entry shows. -/
structure Entry.Avoids (c : Char) (e : Entry) : Prop where
  kind : c ∉ e.kind
  message : c ∉ e.message
  hint : ∀ hint ∈ e.hint, c ∉ hint
  excerpt : ∀ l ∈ e.location, c ∉ l.excerpt

end Layout

namespace Entry
variable {c : Char} {e : Entry} {filename : Text}

theorem not_mem_heading (hc : isLayout c = false) (he : e.Avoids c) :
    ∀ s ∈ e.heading, c ∉ s.text := by
  simp (disch := decide) [heading, painted, plain, not_mem_label hc, he.kind, he.message,
    ne_of_isLayout hc]

theorem not_mem_hintLine (hc : isLayout c = false) {hint : Text} (hhint : c ∉ hint) :
    ∀ s ∈ hintLine hint, c ∉ s.text := by
  simp (disch := decide) [hintLine, painted, plain, hhint, ne_of_isLayout hc]

theorem not_mem_fileLine (hc : isLayout c = false) (hfilename : c ∉ filename) :
    ∀ s ∈ fileLine filename, c ∉ s.text := by
  simp (disch := decide) [fileLine, painted, plain, hfilename, ne_of_isLayout hc]

theorem not_mem_locationLines (hc : isLayout c = false) (hfilename : c ∉ filename)
    (severity : Severity) {l : Location} (hexcerpt : c ∉ l.excerpt) :
    ∀ line ∈ locationLines filename severity l, ∀ s ∈ line, c ∉ s.text := by
  simp (disch := decide) [locationLines, painted, plain, hfilename, not_mem_decimal hc,
    not_mem_margin hc, hexcerpt, ne_of_isLayout hc]

/-- A character that neither the layout nor a text brings is in no line. -/
theorem not_mem_lines (hc : isLayout c = false) (he : e.Avoids c) (hfilename : c ∉ filename) :
    ∀ line ∈ e.lines filename, ∀ s ∈ line, c ∉ s.text := by
  intro line hline
  rcases List.mem_append.mp hline with hfirst | hplace
  · rcases List.mem_cons.mp hfirst with rfl | hhint
    · exact not_mem_heading hc he
    · obtain ⟨hint, hmem, rfl⟩ := List.mem_map.mp hhint
      exact not_mem_hintLine hc (he.hint hint (Option.mem_toList.mp hmem))
  · cases hlocation : e.location with
    | none =>
        rw [hlocation] at hplace
        rw [List.mem_singleton.mp hplace]
        exact not_mem_fileLine hc hfilename
    | some l =>
        rw [hlocation] at hplace
        exact not_mem_locationLines hc hfilename e.severity (he.excerpt l hlocation) line hplace

/-- The lines of the entry as plain text. -/
def rows (e : Entry) (filename : Text) : List Text := (e.lines filename).map (Line.write false)

theorem render_eq (e : Entry) (filename : Text) :
    e.render filename = List.intercalate ['\n'] (e.rows filename) := rfl

theorem rows_ne_nil (e : Entry) (filename : Text) : e.rows filename ≠ [] :=
  mt List.map_eq_nil_iff.mp (e.lines_ne_nil filename)

theorem length_rows (e : Entry) (filename : Text) :
    (e.rows filename).length =
      1 + e.hint.toList.length + (if e.location = none then 1 else 4) := by
  rw [rows, List.length_map, lines, List.length_append, List.length_cons, List.length_map,
    Nat.add_comm _ 1]
  cases e.location <;> rfl

/-- Every line shows something, whatever the texts are. -/
theorem exists_text_of_mem_lines {line : Line} (hline : line ∈ e.lines filename) :
    ∃ s ∈ line, s.text ≠ [] := by
  have hlabel : e.severity.label ≠ [] := by cases e.severity <;> decide
  rcases List.mem_append.mp hline with hfirst | hplace
  · rcases List.mem_cons.mp hfirst with rfl | hhint
    · exact ⟨_, List.mem_cons_self, hlabel⟩
    · obtain ⟨hint, -, rfl⟩ := List.mem_map.mp hhint
      exact ⟨_, List.mem_cons_self, List.cons_ne_nil _ _⟩
  · cases hlocation : e.location with
    | none =>
        rw [hlocation] at hplace
        rw [List.mem_singleton.mp hplace]
        exact ⟨_, List.mem_cons_self, List.cons_ne_nil _ _⟩
    | some l =>
        have hall : ∀ line ∈ locationLines filename e.severity l, ∃ s ∈ line, s.text ≠ [] := by
          simp [locationLines, painted, plain]
        rw [hlocation] at hplace
        exact hall line hplace

theorem ne_nil_of_mem_rows {row : Text} (h : row ∈ e.rows filename) : row ≠ [] := by
  obtain ⟨line, hline, rfl⟩ := List.mem_map.mp h
  obtain ⟨s, hs, htext⟩ := exists_text_of_mem_lines hline
  rw [Line.write_false, Ne, List.flatMap_eq_nil_iff]
  exact fun hnone => htext (hnone s hs)

theorem newline_not_mem_rows (he : e.Avoids '\n') (hfilename : '\n' ∉ filename) :
    ∀ row ∈ e.rows filename, '\n' ∉ row := by
  intro row hrow
  obtain ⟨line, hline, rfl⟩ := List.mem_map.mp hrow
  rw [Line.write_false]
  intro hmem
  obtain ⟨s, hs, hc⟩ := List.mem_flatMap.mp hmem
  exact not_mem_lines (by decide) he hfilename line hline s hs hc

/-- The lines of an entry whose texts have no line end are those of its layout. -/
theorem splitOn_render (he : e.Avoids '\n') (hfilename : '\n' ∉ filename) :
    (e.render filename).splitOn '\n' = e.rows filename :=
  List.splitOn_intercalate '\n' (newline_not_mem_rows he hfilename) (e.rows_ne_nil filename)

end Entry

end Display

end ParseReport
