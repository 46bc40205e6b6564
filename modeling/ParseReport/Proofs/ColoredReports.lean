import ParseReport.Proofs.PlainReports
import ParseReport.Proofs.ReportLines

/-!
# Coloured reports

A terminal reads a text as characters that it shows and codes that it obeys. What is written with
colours shows what is written without them, as long as no text in it has an escape character of
its own. Its codes come in pairs: one that starts a paint, and the reset that ends it before
another starts.
-/

namespace ParseReport

namespace Display

section Terminal

/-- What a terminal makes of a part of a text. -/
inductive Piece
  | shown (c : Char)
  | code (parameters : Text)
  deriving DecidableEq, Repr

/-- The pieces of a text that comes after the parameters read so far of a code, or after no open
code. A code that is never ended is none. -/
def piecesFrom : Option Text → Text → List Piece
  | none, [] => []
  | none, '\x1b' :: '[' :: t => piecesFrom (some []) t
  | none, c :: t => .shown c :: piecesFrom none t
  | some parameters, [] => ('\x1b' :: '[' :: parameters).map .shown
  | some parameters, 'm' :: t => .code parameters :: piecesFrom none t
  | some parameters, c :: t => piecesFrom (some (parameters ++ [c])) t

def pieces (t : Text) : List Piece := piecesFrom none t

def Piece.shown? : Piece → Option Char
  | shown c => some c
  | code _ => none

def Piece.code? : Piece → Option Text
  | shown _ => none
  | code parameters => some parameters

/-- The text with every code deleted. -/
def withoutCodes (t : Text) : Text := (pieces t).filterMap Piece.shown?

/-- The codes of the text by their parameters, in order. -/
def codes (t : Text) : List Text := (pieces t).filterMap Piece.code?

/-- Codes that take turns with resets, beginning with a code that is no reset and ending with a
reset. -/
inductive Alternate : List Text → Prop
  | nil : Alternate []
  | cons {start : Text} {later : List Text} :
    start ≠ ['0'] → Alternate later → Alternate (start :: ['0'] :: later)

theorem Alternate.append {first later : List Text} (hfirst : Alternate first)
    (hlater : Alternate later) : Alternate (first ++ later) := by
  induction hfirst with
  | nil => exact hlater
  | cons hstart _ ih => exact .cons hstart ih

theorem pieces_cons {c : Char} (hc : c ≠ '\x1b') (t : Text) :
    pieces (c :: t) = .shown c :: pieces t := by
  rw [pieces, piecesFrom]
  · rfl
  · intro t' h _
    exact hc h

theorem pieces_append {t : Text} (ht : '\x1b' ∉ t) (rest : Text) :
    pieces (t ++ rest) = t.map Piece.shown ++ pieces rest := by
  induction t with
  | nil => rfl
  | cons c t ih =>
      obtain ⟨hc, ht⟩ := not_or.mp (mt List.mem_cons.mpr ht)
      rw [List.cons_append, pieces_cons (Ne.symm hc), ih ht]
      rfl

/-- A code ends at its first `m`. -/
theorem piecesFrom_append {parameters : Text} (hend : 'm' ∉ parameters) (before rest : Text) :
    piecesFrom (some before) (parameters ++ 'm' :: rest) =
      .code (before ++ parameters) :: pieces rest := by
  -- What was read before grows by each character, so it stays free.
  induction parameters generalizing before with
  | nil =>
      rw [List.append_nil]
      rfl
  | cons c parameters ih =>
      obtain ⟨hc, hend⟩ := not_or.mp (mt List.mem_cons.mpr hend)
      rw [List.cons_append, piecesFrom, ih hend, List.append_assoc]
      · rfl
      · exact fun h => hc h.symm

theorem pieces_code_append {parameters : String} (hend : 'm' ∉ parameters.toList) (rest : Text) :
    pieces (code parameters ++ rest) = .code parameters.toList :: pieces rest := by
  have hcode : code parameters ++ rest =
      '\x1b' :: '[' :: (parameters.toList ++ 'm' :: rest) := by
    simp [code]
  rw [hcode]
  exact piecesFrom_append hend [] rest

end Terminal

section Decoration
variable {colored plain colored' plain' : Text}

/-- The coloured text is the plain one with codes put in, each of them whole, in turns with
resets. -/
structure Decorates (colored plain : Text) : Prop where
  -- Whatever comes after is read on its own, so that decorated texts can be put together.
  pieces_append : ∀ rest, pieces (colored ++ rest) = pieces colored ++ pieces rest
  withoutCodes_eq : withoutCodes colored = plain
  alternate : Alternate (codes colored)

namespace Decorates

theorem of_row (row : List Piece) (hrow : ∀ rest, pieces (colored ++ rest) = row ++ pieces rest)
    (hshown : row.filterMap Piece.shown? = plain)
    (hcodes : Alternate (row.filterMap Piece.code?)) : Decorates colored plain := by
  have hpieces : pieces colored = row := by
    have hnil := hrow []
    rw [List.append_nil] at hnil
    exact hnil.trans (List.append_nil row)
  subst hpieces
  exact ⟨hrow, hshown, hcodes⟩

theorem withoutCodes_append (h : Decorates colored plain) (later : Text) :
    withoutCodes (colored ++ later) = withoutCodes colored ++ withoutCodes later := by
  rw [withoutCodes, h.pieces_append, List.filterMap_append]
  rfl

theorem codes_append (h : Decorates colored plain) (later : Text) :
    codes (colored ++ later) = codes colored ++ codes later := by
  rw [codes, h.pieces_append, List.filterMap_append]
  rfl

theorem append (h : Decorates colored plain) (h' : Decorates colored' plain') :
    Decorates (colored ++ colored') (plain ++ plain') where
  pieces_append rest := by
    rw [List.append_assoc, h.pieces_append, h'.pieces_append, h.pieces_append, List.append_assoc]
  withoutCodes_eq := by rw [h.withoutCodes_append, h.withoutCodes_eq, h'.withoutCodes_eq]
  alternate := by
    rw [h.codes_append]
    exact h.alternate.append h'.alternate

theorem flatMap {α : Type} {f g : α → Text} {row : List α}
    (h : ∀ a ∈ row, Decorates (f a) (g a)) : Decorates (row.flatMap f) (row.flatMap g) := by
  induction row with
  | nil => exact ⟨fun _ => rfl, rfl, .nil⟩
  | cons a row ih =>
      obtain ⟨hfirst, hrest⟩ := List.forall_mem_cons.mp h
      exact hfirst.append (ih hrest)

end Decorates

theorem filterMap_shown?_map (t : Text) : (t.map Piece.shown).filterMap Piece.shown? = t := by
  rw [List.filterMap_map]
  exact List.filterMap_some

theorem filterMap_code?_map (t : Text) : (t.map Piece.shown).filterMap Piece.code? = [] := by
  rw [List.filterMap_map]
  exact List.filterMap_eq_nil_iff.mpr fun _ _ => rfl

theorem decorates_self {t : Text} (ht : '\x1b' ∉ t) : Decorates t t := by
  refine .of_row _ (pieces_append ht) (filterMap_shown?_map t) ?_
  rw [filterMap_code?_map]
  exact .nil

/-- Every paint has a code of its own, none of them the reset. -/
theorem Paint.exists_parameters (paint : Paint) :
    ∃ parameters : String, paint.code = Display.code parameters ∧ 'm' ∉ parameters.toList ∧
      parameters.toList ≠ ['0'] := by
  cases paint with
  | severity severity =>
      cases severity with
      | worry => exact ⟨"1;33", rfl, by decide, by decide⟩
      | regret => exact ⟨"1;31", rfl, by decide, by decide⟩
      | panic => exact ⟨"1;35", rfl, by decide, by decide⟩
  | hint => exact ⟨"1;32", rfl, by decide, by decide⟩
  | bold => exact ⟨"1", rfl, by decide, by decide⟩
  | gutter => exact ⟨"1;34", rfl, by decide, by decide⟩

theorem decorates_paint (paint : Paint) {t : Text} (ht : '\x1b' ∉ t) :
    Decorates (paint.code ++ t ++ reset) t := by
  obtain ⟨parameters, hcode, hend, hstart⟩ := paint.exists_parameters
  have hreset : 'm' ∉ "0".toList := by decide
  refine .of_row (.code parameters.toList :: (t.map Piece.shown ++ [.code ['0']])) ?_ ?_ ?_
  · intro rest
    rw [hcode, reset, List.append_assoc, List.append_assoc, pieces_code_append hend,
      pieces_append ht, pieces_code_append hreset, List.cons_append, List.append_assoc]
    rfl
  · rw [List.filterMap_cons_none rfl, List.filterMap_append, filterMap_shown?_map]
    exact List.append_nil t
  · rw [List.filterMap_cons, List.filterMap_append, filterMap_code?_map]
    exact .cons hstart .nil

theorem Segment.decorates_write {s : Segment} (hs : '\x1b' ∉ s.text) :
    Decorates (s.write true) (s.write false) := by
  rw [Segment.write_false, Segment.write]
  cases s.paint with
  | none => exact decorates_self hs
  | some paint => exact decorates_paint paint hs

theorem Line.decorates_writeLn {line : Line} (hline : ∀ s ∈ line, '\x1b' ∉ s.text) :
    Decorates (line.writeLn true) (line.writeLn false) :=
  (Decorates.flatMap fun s hmem => s.decorates_write (hline s hmem)).append
    (decorates_self (by decide))

end Decoration

section Entries
variable {filename : Text} {e : Entry}

/-- No text that the entry shows has an escape character. -/
structure Entry.HasNoEscape (e : Entry) : Prop where
  kind : '\x1b' ∉ e.kind
  message : '\x1b' ∉ e.message
  hint : ∀ hint ∈ e.hint, '\x1b' ∉ hint
  excerpt : ∀ location ∈ e.location, '\x1b' ∉ location.excerpt

instance (e : Entry) : Decidable e.HasNoEscape :=
  decidable_of_iff
    ('\x1b' ∉ e.kind ∧ '\x1b' ∉ e.message ∧ (∀ hint ∈ e.hint, '\x1b' ∉ hint) ∧
      ∀ location ∈ e.location, '\x1b' ∉ location.excerpt)
    ⟨fun ⟨kind, message, hint, excerpt⟩ => ⟨kind, message, hint, excerpt⟩,
      fun he => ⟨he.kind, he.message, he.hint, he.excerpt⟩⟩

theorem isLayout_escape : isLayout '\x1b' = false := rfl

theorem Entry.HasNoEscape.avoids (he : e.HasNoEscape) : e.Avoids '\x1b' :=
  ⟨he.kind, he.message, he.hint, he.excerpt⟩

theorem Entry.decorates_emit (he : e.HasNoEscape) (hfilename : '\x1b' ∉ filename) :
    Decorates (e.emit true filename) (e.emit false filename) :=
  (Decorates.flatMap fun _ hline =>
    Line.decorates_writeLn (Entry.not_mem_lines isLayout_escape he.avoids hfilename _ hline)).append
      (decorates_self (by decide))

theorem decorates_emitAll {entries : List Entry} (hentries : ∀ e ∈ entries, e.HasNoEscape)
    (hfilename : '\x1b' ∉ filename) :
    Decorates (emitAll true filename entries) (emitAll false filename entries) :=
  Decorates.flatMap fun e hmem => Entry.decorates_emit (hentries e hmem) hfilename

end Entries

theorem not_mem_intercalate {α : Type} {a : α} {separator : List α} {parts : List (List α)}
    (hseparator : a ∉ separator) (hparts : ∀ part ∈ parts, a ∉ part) :
    a ∉ List.intercalate separator parts := by
  intro hmem
  by_cases hnone : parts = []
  · rw [hnone] at hmem
    cases hmem
  · have hall := List.mem_append_left separator hmem
    rw [intercalate_append_separator hnone] at hall
    obtain ⟨part, hpart, hboth⟩ := List.mem_flatMap.mp hall
    rcases List.mem_append.mp hboth with hin | hbehind
    · exact hparts part hpart hin
    · exact hseparator hbehind

end Display

open Display

namespace Failure
variable {f : Failure}

/-- No text that a report of the failure shows has an escape character. -/
structure HasNoEscape (f : Failure) : Prop where
  filename : '\x1b' ∉ f.filename
  entries : ∀ d ∈ f.diagnostics, ∀ e, d.entry = .ok e → e.HasNoEscape

theorem escape_not_mem_summary (hfilename : '\x1b' ∉ f.filename) : '\x1b' ∉ f.summary := by
  have hcounts : ∀ present : List (Severity × Nat), '\x1b' ∉ List.intercalate ", ".toList
      (present.map fun entry => entry.1.counted entry.2) := by
    intro present
    apply not_mem_intercalate (by simp)
    intro part hpart
    obtain ⟨⟨severity, count⟩, -, rfl⟩ := List.mem_map.mp hpart
    exact not_mem_counted isLayout_escape severity count
  unfold summary
  simp only [List.mem_append, not_or]
  refine ⟨⟨⟨⟨by simp, hcounts _⟩, by simp⟩, hfilename⟩, ?_⟩
  cases f.cause with
  | limitExceeded limit => simp [not_mem_decimal isLayout_escape]
  | panic => exact List.not_mem_nil
  | concerns => exact List.not_mem_nil

theorem decorates_emitSummary (hfilename : '\x1b' ∉ f.filename) :
    Decorates (f.emitSummary true) (f.emitSummary false) :=
  Line.decorates_writeLn (by simpa [painted] using escape_not_mem_summary hfilename)

/-- The summary is painted whatever it says. -/
theorem codes_emitSummary_ne_nil (f : Failure) : codes (f.emitSummary true) ≠ [] := by
  obtain ⟨parameters, hcode, hend, -⟩ := (Paint.severity f.summarySeverity).exists_parameters
  have hwrite : f.emitSummary true =
      Display.code parameters ++ (f.summary ++ reset ++ [] ++ ['\n']) := by
    rw [← hcode]
    simp [emitSummary, Line.writeLn, Line.write, Segment.write, painted]
  rw [hwrite, codes, pieces_code_append hend]
  exact List.cons_ne_nil _ _

theorem emit_eq (f : Failure) (colored : Bool) :
    f.emit colored = (f.diagnostics.mapM Diagnostic.entry).map fun entries =>
      emitAll colored f.filename entries ++ f.emitSummary colored := by
  rw [emit, Diagnostic.emitAll]
  cases f.diagnostics.mapM Diagnostic.entry <;> rfl

end Failure

/-- Diagnostics that can all be located have their entries. -/
theorem Diagnostic.exists_mapM_entry {diagnostics : List Diagnostic}
    (hlocated : ∀ d ∈ diagnostics, ∃ l, d.location = .ok l) :
    ∃ entries, diagnostics.mapM Diagnostic.entry = .ok entries := by
  apply exists_mapM_eq_ok
  intro d hd
  obtain ⟨l, hl⟩ := hlocated d hd
  exact ⟨_, Diagnostic.entry_eq hl⟩

/-- Where no text of a failure has an escape character, deleting the codes from what a terminal
with colours gets for it leaves what one without colours gets. The codes are a start and a reset by
turns, at least one of each. A failure is written if its diagnostics can be located. -/
theorem colors_only_decorate {f : Failure} (hclean : f.HasNoEscape) :
    (f.emit true).map withoutCodes = f.emit false ∧
      (∀ out, f.emit true = .ok out → codes out ≠ [] ∧ Alternate (codes out)) ∧
      ((∀ d ∈ f.diagnostics, ∃ l, d.location = .ok l) → ∃ out, f.emit true = .ok out) := by
  rw [f.emit_eq, f.emit_eq]
  cases hentries : f.diagnostics.mapM Diagnostic.entry with
  | error fault =>
      refine ⟨rfl, ?_, ?_⟩
      · intro out hout
        cases hout
      · intro hlocated
        obtain ⟨entries, hok⟩ := Diagnostic.exists_mapM_entry hlocated
        cases hentries.symm.trans hok
  | ok entries =>
      have hfree : ∀ e ∈ entries, e.HasNoEscape := by
        intro e hmem
        have hshown : Except.ok e ∈ f.diagnostics.map Diagnostic.entry := by
          rw [Diagnostic.mapM_entry_eq_ok_iff.mp hentries]
          exact List.mem_map_of_mem hmem
        obtain ⟨d, hd, hentry⟩ := List.mem_map.mp hshown
        exact hclean.entries d hd e hentry
      have hbody := decorates_emitAll hfree hclean.filename
      have hall := hbody.append (Failure.decorates_emitSummary hclean.filename)
      refine ⟨congrArg Except.ok hall.withoutCodes_eq, ?_, fun _ => ⟨_, rfl⟩⟩
      intro out hout
      obtain rfl := Except.ok.inj hout
      refine ⟨?_, hall.alternate⟩
      rw [hbody.codes_append]
      exact List.append_ne_nil_of_right_ne_nil _ f.codes_emitSummary_ne_nil

/-- A diagnostic with a hint under a line that begins with a tab, and one without a place. -/
theorem colors_of_two_diagnostics :
    let place : Anchor := .attached "\ta)\r\n".toList ⟨2, 3⟩
    let stray : Diagnostic := ⟨.about (.extraCloser ')') place, .regret⟩
    let odd : Diagnostic := ⟨⟨.adHoc "odd".toList, none, none⟩, .worry⟩
    let failure : Failure := ⟨['f'], [stray, odd], .limitExceeded 2⟩
    failure.HasNoEscape ∧ ∃ out, failure.emit true = .ok out ∧
      failure.emit false = .ok (withoutCodes out) ∧ (codes out).length = 24 ∧
      Alternate (codes out) := by
  intro place stray odd failure
  have hclean : failure.HasNoEscape := by
    refine ⟨by decide, List.forall_mem_cons.mpr ⟨?_, List.forall_mem_singleton.mpr ?_⟩⟩
    · have hentry : stray.entry = .ok ⟨.regret, stray.kind, stray.message, stray.hint,
          some ⟨1, 3, "\ta)".toList, 1⟩⟩ := by decide +kernel
      intro e he
      obtain rfl := Except.ok.inj (hentry.symm.trans he)
      decide +kernel
    · intro e he
      obtain rfl := Except.ok.inj he
      decide +kernel
  have hcount : (failure.emit true).map (fun out => (codes out).length) = .ok 24 := by
    decide +kernel
  obtain ⟨hplain, hcodes, -⟩ := colors_only_decorate hclean
  cases hout : failure.emit true with
  | error fault =>
      rw [hout] at hcount
      cases hcount
  | ok out =>
      rw [hout] at hplain hcount
      exact ⟨hclean, out, rfl, hplain.symm, Except.ok.inj hcount, (hcodes out hout).2⟩

end ParseReport
