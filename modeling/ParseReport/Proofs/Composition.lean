import ParseReport.Proofs.Acceptance
import ParseReport.Proofs.Joining

/-!
# Well-formed texts put together

At the end of a well-formed text reading is outside the literals, no delimiter is open and no
blank is left, so a second one is read behind it as if it stood alone. A site looks ahead by two
characters at most, and this is why only two seams matter: a `<` before a `>`, and a blank with a
`\r` before a `\n`.
-/

namespace ParseReport

/-- Balanced words can be written one after the other. -/
theorem Delimiter.Balanced.append {first later : List Char} (hfirst : Balanced first)
    (hlater : Balanced later) : Balanced (first ++ later) := by
  induction hfirst with
  | empty => exact hlater
  | nest hpartners hinner _ _ ih =>
      rw [List.append_assoc, List.cons_append]
      exact .nest hpartners hinner ih

namespace Check
open Delimiter
variable {a b : Text}

section Sites

theorem sites_append (ha : openLiteral? a = none) :
    sites (a ++ b) = (sites a).map (Site.extend b) ++ (sites b).map (Site.shift a) := by
  have hoff : modeFrom [] .outside a = .outside := Mode.quote?_eq_none_iff.mp ha
  have hbehind := sitesFrom_shift a [] b .outside
  rw [List.append_nil] at hbehind
  rw [sites, sitesFrom_append, hoff, List.nil_append]
  exact congrArg _ hbehind

theorem openLiteral?_append (ha : openLiteral? a = none) :
    openLiteral? (a ++ b) = (openLiteral? b).map (a ++ ·) := by
  have hoff : modeFrom [] .outside a = .outside := Mode.quote?_eq_none_iff.mp ha
  have hbehind := modeFrom_shift a [] b .outside
  rw [List.append_nil] at hbehind
  rw [openLiteral?, modeFrom_append, hoff, List.nil_append, openLiteral?, ← Mode.quote?_shift]
  exact congrArg Mode.quote? hbehind

theorem forall_mem_sites_append (ha : openLiteral? a = none) {p : Site → Prop} :
    (∀ s ∈ sites (a ++ b), p s) ↔
      (∀ s ∈ sites a, p (s.extend b)) ∧ ∀ s ∈ sites b, p (s.shift a) := by
  rw [sites_append ha, List.forall_mem_append, List.forall_mem_map, List.forall_mem_map]

theorem delimitersAt_eq (row : List Site) :
    delimitersAt row = (row.map Site.char).filter fun c => isOpener c || isCloser c := by
  rw [delimitersAt, List.filter_map]
  rfl

theorem delimiters_append (ha : openLiteral? a = none) :
    delimiters (a ++ b) = delimiters a ++ delimiters b := by
  simp only [delimiters, delimitersAt_eq, sites_append ha, List.map_append, List.map_map,
    List.filter_append]
  rfl

/-- Where every literal is closed, what comes after the last quote is outside. -/
theorem mem_sites_of_tail {front more : Text} {c : Char}
    (hclosed : openLiteral? (front ++ c :: more) = none) (htail : ∀ d ∈ c :: more, d ≠ '"') :
    ⟨front, c, more⟩ ∈ sites (front ++ c :: more) := by
  have hmode : modeFrom [] .outside (front ++ c :: more) = .outside :=
    Mode.quote?_eq_none_iff.mp hclosed
  rw [modeFrom_append, modeFrom_eq_outside_iff htail] at hmode
  exact mem_sites_iff.mpr ⟨rfl, hmode, htail c List.mem_cons_self⟩

end Sites

section Seams

/-- Put together, the texts have a `<>` that neither has alone. -/
def JoinsInequality (a b : Text) : Prop := a.getLast? = some '<' ∧ b.head? = some '>'

/-- Put together, the texts have a `\r\n` directly after a blank that neither has alone. -/
def JoinsLineEnd (a b : Text) : Prop :=
  ∃ front blank, a = front ++ [blank, '\r'] ∧ isBlank blank = true ∧ b.head? = some '\n'

theorem inequalities_extend_iff (ha : WellFormed a) :
    (∀ s ∈ sites a, s.char = '<' → (s.extend b).after.head? ≠ some '>') ↔
      ¬JoinsInequality a b := by
  constructor
  · rintro hnone ⟨hlast, hhead⟩
    obtain ⟨front, rfl⟩ := List.getLast?_eq_some_iff.mp hlast
    have hmem : ⟨front, '<', []⟩ ∈ sites (front ++ ['<']) :=
      mem_sites_of_tail ha.literals (List.forall_mem_singleton.mpr (by decide))
    exact hnone _ hmem rfl hhead
  · intro hseam s hs hless hhead
    cases hafter : s.after with
    | nil =>
        apply hseam
        have htext : s.text = a := (mem_sites_iff.mp hs).1
        rw [Site.text, hless, hafter] at htext
        rw [Site.extend, hafter] at hhead
        exact ⟨by rw [← htext, List.getLast?_concat], hhead⟩
    | cons c after =>
        apply ha.inequalities s hs hless
        rw [Site.extend, hafter] at hhead
        rwa [hafter]

/-- More text behind makes a line end only out of a lone `\r`. -/
theorem endsLine_append_iff {t : Text} (h : endsLine t = false) :
    endsLine (t ++ b) = true ↔ t = ['\r'] ∧ b.head? = some '\n' := by
  match t with
  | [] => cases h
  | [c] =>
      have hline : c ≠ '\n' := by
        rintro rfl
        cases h
      cases b with
      | nil => simp [h]
      | cons d b => simp [endsLine_cons_cons, hline]
  | c :: d :: t =>
      have hsame : endsLine (c :: d :: t ++ b) = endsLine (c :: d :: t) :=
        (endsLine_cons_cons c d (t ++ b)).trans (endsLine_cons_cons c d t).symm
      rw [hsame, h]
      simp

theorem blanks_extend_iff (ha : WellFormed a) :
    (∀ s ∈ sites a, isBlank s.char = true → endsLine (s.extend b).after = false) ↔
      ¬JoinsLineEnd a b := by
  constructor
  · rintro hnone ⟨front, blank, rfl, hblank, hhead⟩
    have htail : ∀ d ∈ [blank, '\r'], d ≠ '"' := by
      simpa using (kind_of_blank hblank).2.2.1
    have hmem : ⟨front, blank, ['\r']⟩ ∈ sites (front ++ [blank, '\r']) :=
      mem_sites_of_tail ha.literals htail
    have hends : endsLine (['\r'] ++ b) = true := (endsLine_append_iff rfl).mpr ⟨rfl, hhead⟩
    have hnot : endsLine (['\r'] ++ b) = false := hnone _ hmem hblank
    rw [hends] at hnot
    cases hnot
  · intro hseam s hs hblank
    rw [Bool.eq_false_iff]
    intro hends
    obtain ⟨hafter, hhead⟩ := (endsLine_append_iff (ha.blanks s hs hblank)).mp hends
    have htext : s.text = a := (mem_sites_iff.mp hs).1
    rw [Site.text, hafter] at htext
    exact hseam ⟨s.before, s.char, htext.symm, hblank, hhead⟩

/-- The two seams are all that can keep well-formed texts from being well formed together. -/
theorem wellFormed_append_iff (ha : WellFormed a) (hb : WellFormed b) :
    WellFormed (a ++ b) ↔ ¬JoinsInequality a b ∧ ¬JoinsLineEnd a b := by
  have hinequalities :=
    forall_mem_sites_append (b := b) ha.literals
      (p := fun s => s.char = '<' → s.after.head? ≠ some '>')
  have hblanks :=
    forall_mem_sites_append (b := b) ha.literals
      (p := fun s => isBlank s.char = true → endsLine s.after = false)
  constructor
  · intro h
    exact ⟨(inequalities_extend_iff ha).mp (hinequalities.mp h.inequalities).1,
      (blanks_extend_iff ha).mp (hblanks.mp h.blanks).1⟩
  · rintro ⟨hjoins, hends⟩
    constructor
    · rw [openLiteral?_append ha.literals, hb.literals]
      rfl
    · exact hinequalities.mpr ⟨(inequalities_extend_iff ha).mpr hjoins, hb.inequalities⟩
    · exact hblanks.mpr ⟨(blanks_extend_iff ha).mpr hends, hb.blanks⟩
    · rw [delimiters_append ha.literals]
      exact ha.balanced.append hb.balanced

theorem pairs_append (ha : WellFormed a) (hb : WellFormed b) (h : WellFormed (a ++ b)) :
    pairs (a ++ b) = pairs a + pairs b := by
  have hwhole := h.two_mul_pairs
  rw [delimiters_append ha.literals, List.length_append, ← ha.two_mul_pairs,
    ← hb.two_mul_pairs] at hwhole
  omega

end Seams

section Accepts
variable {t : Text} {config : Config} {summary : Summary}

/-- A check of the text succeeds with the summary. -/
def Accepts (config : Config) (t : Text) (summary : Summary) : Prop :=
  ∃ outcome, check t config = .ok outcome ∧ outcome.result = .ok summary

/-- A check that has an outcome had a limit. -/
theorem limit_ne_zero_of_check (hfits : t.size + 2 ≤ maxOffset) {outcome : Outcome}
    (hcheck : check t config = .ok outcome) : config.limit ≠ 0 := by
  intro hzero
  have hstop : ¬maxOffset < t.size := by omega
  have hrange : Span.ofRange 0 t.size = .ok ⟨0, t.size.toUInt32⟩ := by
    simp [Span.ofRange, hstop]
  rw [check, hrange, Session.ofConfig, Ledger.create, dif_pos hzero] at hcheck
  cases hcheck

/-- A check that has an outcome gives the verdict. -/
theorem result_eq_verdict (hfits : t.size + 2 ≤ maxOffset) {outcome : Outcome}
    (hcheck : check t config = .ok outcome) : outcome.result = verdict t config := by
  have hlimit := limit_ne_zero_of_check hfits hcheck
  obtain ⟨p, hp, -, hverdict⟩ := check_eq_outcome hfits config hlimit
  obtain rfl : outcome = p.outcome t := Except.ok.inj (hcheck.symm.trans hp)
  exact hverdict

theorem result_eq_ok_iff (hfits : t.size + 2 ≤ maxOffset) {outcome : Outcome}
    (hcheck : check t config = .ok outcome) :
    outcome.result = .ok summary ↔ summary? t = some summary := by
  have hlimit := limit_ne_zero_of_check hfits hcheck
  rw [← toOption_verdict t config hlimit, ← result_eq_verdict hfits hcheck]
  cases outcome.result <;> simp [Except.toOption]

theorem accepts_iff (hfits : t.size + 2 ≤ maxOffset) :
    Accepts config t summary ↔ config.limit ≠ 0 ∧ summary? t = some summary := by
  constructor
  · rintro ⟨outcome, hcheck, hresult⟩
    exact ⟨limit_ne_zero_of_check hfits hcheck, (result_eq_ok_iff hfits hcheck).mp hresult⟩
  · rintro ⟨hlimit, hsummary⟩
    obtain ⟨p, hp, -, -⟩ := check_eq_outcome hfits config hlimit
    exact ⟨p.outcome t, hp, (result_eq_ok_iff hfits hp).mpr hsummary⟩

/-- Two texts that are accepted are accepted together, whatever the limits, unless a `<` meets a
`>` or a blank with a `\r` meets a `\n`; and their pairs add up. -/
theorem check_append_succeeds_iff {configA configB : Config} {summaryA summaryB : Summary}
    (ha : Accepts configA a summaryA) (hb : Accepts configB b summaryB)
    (hfits : Text.size (a ++ b) + 2 ≤ maxOffset) (hlimit : config.limit ≠ 0) :
    ∃ outcome, check (a ++ b) config = .ok outcome ∧
      ((∃ summary, outcome.result = .ok summary) ↔
        ¬JoinsInequality a b ∧ ¬JoinsLineEnd a b) ∧
      ∀ summary, outcome.result = .ok summary →
        summary.pairs = summaryA.pairs + summaryB.pairs := by
  have hsize := hfits
  rw [Text.size_append] at hsize
  obtain ⟨-, hsummaryA⟩ := (accepts_iff (by omega)).mp ha
  obtain ⟨-, hsummaryB⟩ := (accepts_iff (by omega)).mp hb
  obtain ⟨hwellA, rfl⟩ := eq_of_mem_summary? hsummaryA
  obtain ⟨hwellB, rfl⟩ := eq_of_mem_summary? hsummaryB
  obtain ⟨p, hp, -, -⟩ := check_eq_outcome hfits config hlimit
  refine ⟨p.outcome (a ++ b), hp, ?_, ?_⟩
  · rw [← wellFormed_append_iff hwellA hwellB, ← isSome_summary?_iff, Option.isSome_iff_exists]
    exact exists_congr fun summary => result_eq_ok_iff hfits hp
  · intro summary hok
    obtain ⟨hwell, rfl⟩ := eq_of_mem_summary? ((result_eq_ok_iff hfits hp).mp hok)
    exact pairs_append hwellA hwellB hwell

/-- Neither text has a blank at the end of a line, and the two together do. -/
theorem check_append_at_line_end :
    let front : Text := "(x) \r".toList
    let back : Text := "\n[y]".toList
    Accepts ⟨['f'], 1⟩ front ⟨1, 1⟩ ∧ Accepts ⟨['g'], 2⟩ back ⟨1, 2⟩ ∧
      Text.size (front ++ back) + 2 ≤ maxOffset ∧ (⟨['h'], 3⟩ : Config).limit ≠ 0 ∧
      ∃ outcome, check (front ++ back) ⟨['h'], 3⟩ = .ok outcome ∧
        ¬∃ summary, outcome.result = .ok summary := by
  intro front back
  have hfront : Accepts ⟨['f'], 1⟩ front ⟨1, 1⟩ :=
    (accepts_iff (by decide)).mpr ⟨by decide, rfl⟩
  have hback : Accepts ⟨['g'], 2⟩ back ⟨1, 2⟩ := (accepts_iff (by decide)).mpr ⟨by decide, rfl⟩
  have hfits : Text.size (front ++ back) + 2 ≤ maxOffset := by decide
  have hlimit : (⟨['h'], 3⟩ : Config).limit ≠ 0 := by decide
  obtain ⟨outcome, hcheck, hsucceeds, -⟩ := check_append_succeeds_iff hfront hback hfits hlimit
  refine ⟨hfront, hback, hfits, hlimit, outcome, hcheck, ?_⟩
  rw [hsucceeds]
  rintro ⟨-, hseam⟩
  exact hseam ⟨"(x)".toList, ' ', rfl, rfl, rfl⟩

end Accepts

end Check

end ParseReport
