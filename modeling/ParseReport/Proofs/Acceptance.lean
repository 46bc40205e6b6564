import ParseReport.Proofs.Brackets
import ParseReport.Proofs.Truncation

/-!
# When a check succeeds

A check succeeds on the texts of which four things are true, and these can be said without the
scan: every literal is closed, no outside `<` meets a `>`, no line ends with outside blanks, and
the outside delimiters are a balanced word. What a successful check counts follows from the text
as well.
-/

namespace ParseReport

/-- Each `\n` ends a line, and what comes after the last one is a line of its own. -/
theorem Text.foldl_countLine (t : Text) :
    t.foldl countLine (0, false) =
      (t.count '\n' + if t ≠ [] ∧ t.getLast? ≠ some '\n' then 1 else 0,
        decide (t ≠ [] ∧ t.getLast? ≠ some '\n')) := by
  induction t using List.reverseRecOn with
  | nil => rfl
  | append_singleton t c ih =>
      rw [List.foldl_append, ih]
      by_cases hopen : t ≠ [] ∧ t.getLast? ≠ some '\n' <;> by_cases hc : c = '\n' <;>
        simp [countLine, hopen, hc, List.count_append]

namespace Check
open Delimiter

/-- Whether an opener or a closer stands at the site. -/
def Site.isDelimiter (s : Site) : Bool := isOpener s.char || isCloser s.char

/-- The delimiters at a row of sites. -/
def delimitersAt (sites : List Site) : List Char := (sites.filter Site.isDelimiter).map Site.char

/-- The delimiters outside the literals of a text. -/
def delimiters (t : Text) : List Char := delimitersAt (sites t)

/-- Number of diagnostics of one kind. -/
def countKind (kind : Text) (row : List Diagnostic) : Nat := row.countP (·.kind = kind)

theorem countKind_append (kind : Text) (first later : List Diagnostic) :
    countKind kind (first ++ later) = countKind kind first + countKind kind later :=
  List.countP_append

/-- What has to be true of a text for a check of it to succeed. -/
structure WellFormed (t : Text) : Prop where
  literals : openLiteral? t = none
  inequalities : ∀ s ∈ sites t, s.char = '<' → s.after.head? ≠ some '>'
  /-- No run of blanks ends a line, since its last blank does not come right before the end. -/
  blanks : ∀ s ∈ sites t, isBlank s.char = true → endsLine s.after = false
  balanced : Balanced (delimiters t)

section Delimiters
variable {pending rest : List Site} {s : Site}

theorem delimitersAt_cons (s : Site) (rest : List Site) :
    delimitersAt (s :: rest) =
      if s.isDelimiter then s.char :: delimitersAt rest else delimitersAt rest := by
  rw [delimitersAt, List.filter_cons]
  split <;> rfl

theorem kind_of_mem_delimitersAt {c : Char} (h : c ∈ delimitersAt rest) :
    isOpener c = true ∨ isCloser c = true := by
  obtain ⟨s, hs, rfl⟩ := List.mem_map.mp h
  have hdelimiter := (List.mem_filter.mp hs).2
  simpa [Site.isDelimiter] using hdelimiter

/-- Delimiters are neither blanks nor signs for an inequality. -/
theorem Site.silent_of_isDelimiter (h : s.isDelimiter = true) :
    s.isOldInequality = false ∧ s.beginsTrailing = false := by
  have hless : s.char ≠ '<' := by
    intro hless
    simp [isDelimiter, isOpener, isCloser, hless] at h
  have hblank : isBlank s.char = false := by
    rw [Bool.eq_false_iff]
    intro hblank
    obtain ⟨hopener, hcloser, -⟩ := kind_of_blank hblank
    simp [isDelimiter, hopener, hcloser] at h
  constructor
  · simp [isOldInequality, hless]
  · simp [beginsTrailing, hblank]

theorem Site.reports_acts_of_neither (pending : List Site) (hopener : isOpener s.char = false)
    (hcloser : isCloser s.char = false) :
    reports (s.acts pending) = [] ↔ s.isOldInequality = false ∧ s.beginsTrailing = false := by
  cases hold : s.isOldInequality with
  | true => simp [acts, hopener, hcloser, hold, reports, Act.report?]
  | false =>
      cases htrailing : s.beginsTrailing with
      | true => simp [acts, hopener, hcloser, hold, htrailing, reports, Act.report?]
      | false => simp [acts, hopener, hcloser, hold, htrailing, reports]

/-- A site with nothing to report hands the stack on as its delimiter does. -/
theorem Site.reports_acts_eq_nil_iff (pending : List Site) (s : Site) (later : List Char) :
    reports (s.acts pending) = [] ∧
        stackAfter? ((s.consume pending).map Site.char) later = some [] ↔
      (s.isOldInequality = false ∧ s.beginsTrailing = false) ∧
        stackAfter? (pending.map Site.char)
          (if s.isDelimiter then s.char :: later else later) = some [] := by
  cases hopener : isOpener s.char with
  | true =>
      have hdelimiter : s.isDelimiter = true := by simp [Site.isDelimiter, hopener]
      rw [if_pos hdelimiter, stackAfter?_opener hopener, Site.acts_of_opener pending hopener,
        Site.consume_of_opener pending hopener]
      simp [Site.silent_of_isDelimiter hdelimiter, reports, Act.report?]
  | false =>
      cases hcloser : isCloser s.char with
      | true =>
          have hdelimiter : s.isDelimiter = true := by simp [Site.isDelimiter, hcloser]
          rw [if_pos hdelimiter, Site.consume_of_closer pending hopener hcloser]
          cases pending with
          | nil =>
              rw [List.map_nil, stackAfter?_extra hopener, Site.acts_of_extra hopener hcloser]
              simp [reports, Act.report?]
          | cons opener pending =>
              rw [List.map_cons, stackAfter?_closer hopener,
                Site.acts_of_closer opener pending hopener hcloser]
              split
              · simp [Site.silent_of_isDelimiter hdelimiter, reports, Act.report?]
              · simp [reports, Act.report?]
      | false =>
          have hdelimiter : ¬s.isDelimiter = true := by
            simp [Site.isDelimiter, hopener, hcloser]
          rw [if_neg hdelimiter, Site.reports_acts_of_neither pending hopener hcloser,
            Site.consume_of_neither pending hopener hcloser]

/-- Nothing is reported and nothing stays open exactly if nothing but delimiters is to be looked
at and the stack takes them in. -/
theorem reports_actsFrom_eq_nil_iff (pending rest : List Site) :
    reports (actsFrom pending rest) = [] ∧ pendingFrom pending rest = [] ↔
      (∀ s ∈ rest, s.isOldInequality = false ∧ s.beginsTrailing = false) ∧
        stackAfter? (pending.map Site.char) (delimitersAt rest) = some [] := by
  induction rest generalizing pending with
  | nil => simp [actsFrom, reports, pendingFrom, delimitersAt, stackAfter?]
  | cons s rest ih =>
      have hpending : pendingFrom pending (s :: rest) = pendingFrom (s.consume pending) rest := rfl
      have hsite := s.reports_acts_eq_nil_iff pending (delimitersAt rest)
      rw [← delimitersAt_cons] at hsite
      rw [actsFrom, reports_append, List.append_eq_nil_iff, and_assoc, hpending, ih,
        List.forall_mem_cons]
      constructor
      · rintro ⟨hreports, hrest, hstack⟩
        obtain ⟨hsilent, hstack⟩ := hsite.mp ⟨hreports, hstack⟩
        exact ⟨⟨hsilent, hrest⟩, hstack⟩
      · rintro ⟨⟨hsilent, hrest⟩, hstack⟩
        obtain ⟨hreports, hstack⟩ := hsite.mpr ⟨hsilent, hstack⟩
        exact ⟨hreports, hrest, hstack⟩

theorem Site.conserve (pending : List Site) (s : Site) :
    (if isOpener s.char then 1 else 0) + pending.length =
        (s.acts pending).countP Act.isPair +
          countKind "mismatched".toList (reports (s.acts pending)) + (s.consume pending).length ∧
      (if isCloser s.char then 1 else 0) =
        (s.acts pending).countP Act.isPair +
          countKind "mismatched".toList (reports (s.acts pending)) +
          countKind "extra-paren".toList (reports (s.acts pending)) := by
  cases hopener : isOpener s.char with
  | true =>
      rw [Site.acts_of_opener pending hopener, Site.consume_of_opener pending hopener,
        isCloser_of_opener hopener]
      refine ⟨?_, rfl⟩
      change 1 + pending.length = 0 + 0 + (pending.length + 1)
      omega
  | false =>
      cases hcloser : isCloser s.char with
      | true =>
          rw [Site.consume_of_closer pending hopener hcloser]
          cases pending with
          | nil =>
              rw [Site.acts_of_extra hopener hcloser]
              exact ⟨rfl, rfl⟩
          | cons opener pending =>
              rw [Site.acts_of_closer opener pending hopener hcloser]
              by_cases hfit : Delimiter.closing? opener.char = some s.char
              · rw [if_pos hfit]
                refine ⟨?_, rfl⟩
                change 0 + (pending.length + 1) = 1 + 0 + pending.length
                omega
              · rw [if_neg hfit]
                refine ⟨?_, rfl⟩
                change 0 + (pending.length + 1) = 0 + 1 + pending.length
                omega
      | false =>
          rw [Site.consume_of_neither pending hopener hcloser]
          have hnone : (s.acts pending).countP Act.isPair = 0 ∧
              countKind "mismatched".toList (reports (s.acts pending)) = 0 ∧
              countKind "extra-paren".toList (reports (s.acts pending)) = 0 := by
            simp only [acts, hopener, hcloser, Bool.false_eq_true, if_false]
            split
            · exact ⟨rfl, rfl, rfl⟩
            · split <;> exact ⟨rfl, rfl, rfl⟩
          obtain ⟨hpair, hmismatched, hextra⟩ := hnone
          rw [hpair, hmismatched, hextra]
          simp

/-- A closer is counted in a pair, reported as mismatched or reported as extra. An opener ends in
one of the first two ways or stays pending. -/
theorem conserve (pending row : List Site) :
    row.countP (fun s => isOpener s.char) + pending.length =
        (actsFrom pending row).countP Act.isPair +
          countKind "mismatched".toList (reports (actsFrom pending row)) +
          (pendingFrom pending row).length ∧
      row.countP (fun s => isCloser s.char) =
        (actsFrom pending row).countP Act.isPair +
          countKind "mismatched".toList (reports (actsFrom pending row)) +
          countKind "extra-paren".toList (reports (actsFrom pending row)) := by
  induction row generalizing pending with
  | nil => exact ⟨by simp [actsFrom, reports, countKind, pendingFrom], rfl⟩
  | cons s row ih =>
      have hpending : pendingFrom pending (s :: row) = pendingFrom (s.consume pending) row := rfl
      obtain ⟨hopeners, hclosers⟩ := s.conserve pending
      obtain ⟨hopenersRest, hclosersRest⟩ := ih (s.consume pending)
      rw [actsFrom, reports_append, List.countP_append, countKind_append, countKind_append,
        hpending, List.countP_cons, List.countP_cons]
      omega

theorem length_delimitersAt (row : List Site) :
    (delimitersAt row).length =
      row.countP (fun s => isOpener s.char) + row.countP (fun s => isCloser s.char) := by
  induction row with
  | nil => rfl
  | cons s row ih =>
      rw [delimitersAt_cons, List.countP_cons, List.countP_cons]
      cases hopener : isOpener s.char with
      | true =>
          rw [if_pos (by simp [Site.isDelimiter, hopener]), List.length_cons, ih,
            isCloser_of_opener hopener, if_pos rfl, if_neg Bool.false_ne_true]
          omega
      | false =>
          cases hcloser : isCloser s.char with
          | true =>
              rw [if_pos (by simp [Site.isDelimiter, hcloser]), List.length_cons, ih,
                if_neg Bool.false_ne_true, if_pos rfl]
              omega
          | false =>
              rw [if_neg (by simp [Site.isDelimiter, hopener, hcloser]), ih,
                if_neg Bool.false_ne_true, Nat.add_zero, Nat.add_zero]

end Delimiters

section Blanks
variable {t : Text} {s : Site}

/-- A run of blanks that ends a line has a first blank. -/
theorem exists_beginsTrailing (hs : s ∈ sites t) (hblank : isBlank s.char = true)
    (hend : endsLine (s.after.dropWhile isBlank) = true) :
    ∃ s' ∈ sites t, s'.beginsTrailing = true := by
  obtain ⟨before, c, after⟩ := s
  induction before using List.reverseRecOn generalizing c after with
  | nil => exact ⟨_, hs, by simp_all [Site.beginsTrailing]⟩
  | append_singleton before d ih =>
      cases hd : isBlank d with
      | false => exact ⟨_, hs, by simp_all [Site.beginsTrailing]⟩
      | true =>
          obtain ⟨htext, hmode, -⟩ := mem_sites_iff.mp hs
          have hquote : d ≠ '"' := (kind_of_blank hd).2.2.1
          rw [modeFrom_append, modeFrom, modeFrom, List.nil_append,
            Mode.next_eq_outside_iff hquote] at hmode
          apply ih d (c :: after)
          · rw [mem_sites_iff]
            refine ⟨?_, hmode, hquote⟩
            rw [← htext, Site.text, Site.text, List.append_assoc]
            rfl
          · exact hd
          · simpa [hblank] using hend

/-- It has a last blank as well. -/
theorem exists_lastBlank (hs : s ∈ sites t) (hblank : isBlank s.char = true)
    (hend : endsLine (s.after.dropWhile isBlank) = true) :
    ∃ s' ∈ sites t, isBlank s'.char = true ∧ endsLine s'.after = true := by
  obtain ⟨before, c, after⟩ := s
  induction after generalizing before c with
  | nil => exact ⟨_, hs, hblank, rfl⟩
  | cons d after ih =>
      cases hd : isBlank d with
      | false =>
          rw [List.dropWhile_cons_of_neg (by simp [hd])] at hend
          exact ⟨_, hs, hblank, hend⟩
      | true =>
          rw [List.dropWhile_cons_of_pos hd] at hend
          obtain ⟨htext, hmode, hquote⟩ := mem_sites_iff.mp hs
          apply ih (before ++ [c]) d
          · rw [mem_sites_iff]
            refine ⟨?_, ?_, (kind_of_blank hd).2.2.1⟩
            · rw [← htext, Site.text, Site.text, List.append_assoc]
              rfl
            · rw [modeFrom_append, modeFrom, modeFrom, List.nil_append,
                Mode.next_eq_outside_iff hquote]
              exact hmode
          · exact hd
          · exact hend

theorem dropWhile_of_endsLine {after : Text} (h : endsLine after = true) :
    after.dropWhile isBlank = after := by
  cases after with
  | nil => rfl
  | cons c after =>
      apply List.dropWhile_cons_of_neg
      intro hblank
      have hc : c = ' ' ∨ c = '\t' := by simpa [isBlank] using hblank
      rcases hc with rfl | rfl <;> cases h

/-- A line ends with a run of blanks exactly if a blank comes right before its end. -/
theorem forall_beginsTrailing_iff :
    (∀ s ∈ sites t, s.beginsTrailing = false) ↔
      ∀ s ∈ sites t, isBlank s.char = true → endsLine s.after = false := by
  constructor
  · intro hnone s hs hblank
    rw [Bool.eq_false_iff]
    intro hend
    have hrun : endsLine (s.after.dropWhile isBlank) = true := by
      rwa [dropWhile_of_endsLine hend]
    obtain ⟨s', hs', htrailing⟩ := exists_beginsTrailing hs hblank hrun
    rw [hnone s' hs'] at htrailing
    cases htrailing
  · intro hnone s hs
    rw [Bool.eq_false_iff]
    intro htrailing
    obtain ⟨hfirst, -, hrun⟩ := Site.beginsTrailing_iff.mp htrailing
    obtain ⟨s', hs', hblank, hend⟩ := exists_lastBlank hs hfirst hrun
    rw [hnone s' hs' hblank] at hend
    cases hend

end Blanks

theorem reports_unclosed_eq_nil_iff {openers : List Site} :
    reports (openers.map Site.unclosed) = [] ↔ openers = [] := by
  cases openers with
  | nil => simp [reports]
  | cons opener openers => simp [reports, Site.unclosed, Act.report?]

theorem acts_of_closed {t : Text} (hclosed : openLiteral? t = none) :
    acts t = actsFrom [] (sites t) ++ (pendingFrom [] (sites t)).reverse.map Site.unclosed := by
  have hquote : (modeFrom [] .outside t).quote? = none := hclosed
  rw [acts, restActs, if_pos hquote]
  rfl

theorem findings_eq_nil_iff {t : Text} (hclosed : openLiteral? t = none) :
    findings t = [] ↔
      reports (actsFrom [] (sites t)) = [] ∧ pendingFrom [] (sites t) = [] := by
  rw [findings, acts_of_closed hclosed, reports_append, List.append_eq_nil_iff,
    reports_unclosed_eq_nil_iff, List.reverse_eq_nil_iff]

/-- The well-formed texts are those without an open literal and without findings. -/
theorem wellFormed_iff {t : Text} :
    WellFormed t ↔ openLiteral? t = none ∧ findings t = [] := by
  have hword : ∀ c ∈ delimiters t, isOpener c = true ∨ isCloser c = true :=
    fun c hc => kind_of_mem_delimitersAt hc
  have hold : (∀ s ∈ sites t, s.isOldInequality = false) ↔
      ∀ s ∈ sites t, s.char = '<' → s.after.head? ≠ some '>' := by
    simp [Site.isOldInequality]
  have hsites : openLiteral? t = none → (findings t = [] ↔
      (∀ s ∈ sites t, s.isOldInequality = false) ∧ (∀ s ∈ sites t, s.beginsTrailing = false) ∧
        stackAfter? [] (delimiters t) = some []) := by
    intro hclosed
    rw [findings_eq_nil_iff hclosed, reports_actsFrom_eq_nil_iff, forall₂_and, and_assoc]
    rfl
  constructor
  · intro h
    refine ⟨h.literals, (hsites h.literals).mpr ⟨?_, ?_, ?_⟩⟩
    · exact hold.mpr h.inequalities
    · exact forall_beginsTrailing_iff.mpr h.blanks
    · exact (balanced_iff_stackAfter? hword).mp h.balanced
  · rintro ⟨hclosed, hnone⟩
    obtain ⟨hinequalities, hblanks, hstack⟩ := (hsites hclosed).mp hnone
    constructor
    · exact hclosed
    · exact hold.mp hinequalities
    · exact forall_beginsTrailing_iff.mp hblanks
    · exact (balanced_iff_stackAfter? hword).mpr hstack

/-- Half of the delimiters of a well-formed text are counted as pairs. -/
theorem WellFormed.two_mul_pairs {t : Text} (h : WellFormed t) :
    2 * pairs t = (delimiters t).length := by
  obtain ⟨hclosed, hnone⟩ := wellFormed_iff.mp h
  obtain ⟨hreports, hpending⟩ := (findings_eq_nil_iff hclosed).mp hnone
  obtain ⟨hopeners, hclosers⟩ := conserve [] (sites t)
  rw [hreports, hpending, List.length_nil] at hopeners
  rw [hreports] at hclosers
  have hdelimiters : (delimiters t).length = _ := length_delimitersAt (sites t)
  have hkinds : ∀ kind, countKind kind [] = 0 := fun _ => rfl
  rw [hkinds] at hopeners
  rw [hkinds, hkinds] at hclosers
  rw [pairs, acts_of_closed hclosed, hpending, List.reverse_nil, List.map_nil, List.append_nil,
    hdelimiters]
  omega

/-- What a check of `t` answers when it succeeds. -/
def summary? (t : Text) : Option Summary :=
  if openLiteral? t = none ∧ findings t = [] then some ⟨pairs t, t.lineCount⟩ else none

theorem isSome_summary?_iff {t : Text} : (summary? t).isSome ↔ WellFormed t := by
  rw [wellFormed_iff, summary?]
  split <;> simp_all

theorem eq_of_mem_summary? {t : Text} {summary : Summary} (h : summary ∈ summary? t) :
    WellFormed t ∧ summary = ⟨pairs t, t.lineCount⟩ := by
  have hwell : WellFormed t := by
    rw [← isSome_summary?_iff, Option.isSome_iff_exists]
    exact ⟨summary, h⟩
  rw [summary?, if_pos (wellFormed_iff.mp hwell)] at h
  exact ⟨hwell, (Option.mem_some_iff.mp h).symm⟩

/-- Only verdicts that are failures depend on a limit or a filename. -/
theorem toOption_verdict (t : Text) (config : Config) (hlimit : config.limit ≠ 0) :
    (verdict t config).toOption = summary? t := by
  have hpositive : ¬config.limit.toNat ≤ 0 := by
    intro hzero
    exact hlimit (UInt64.toNat_inj.mp (Nat.le_zero.mp hzero))
  rw [verdict, summary?]
  by_cases hnone : findings t = []
  · rw [hnone, List.length_nil, if_neg hpositive]
    cases openLiteral? t <;> simp [Except.toOption]
  · have hfailed : ¬(openLiteral? t = none ∧ findings t = []) := fun h => hnone h.2
    rw [if_neg hfailed]
    by_cases hfull : config.limit.toNat ≤ (findings t).length
    · rw [if_pos hfull]
      rfl
    · rw [if_neg hfull]
      cases openLiteral? t <;> simp [Except.toOption, hnone]

/-- One text gives every check with a limit the same answer: a summary exactly if it is well
formed, and then with half of its delimiters and all of its lines. -/
theorem check_succeeds_iff_wellFormed (t : Text) (hfits : t.size + 2 ≤ maxOffset) :
    ∃ answer : Option Summary,
      (answer.isSome ↔ WellFormed t) ∧
      (∀ summary ∈ answer, 2 * summary.pairs = (delimiters t).length ∧
        summary.lines =
          t.count '\n' + if t ≠ [] ∧ t.getLast? ≠ some '\n' then 1 else 0) ∧
      ∀ config : Config, config.limit ≠ 0 →
        ∃ outcome, check t config = .ok outcome ∧ outcome.result.toOption = answer := by
  refine ⟨summary? t, isSome_summary?_iff, ?_, ?_⟩
  · intro summary hsummary
    obtain ⟨hwell, rfl⟩ := eq_of_mem_summary? hsummary
    refine ⟨hwell.two_mul_pairs, ?_⟩
    rw [Text.lineCount, Text.foldl_countLine]
  · intro config hlimit
    obtain ⟨p, hp, -, hresult⟩ := check_eq_outcome hfits config hlimit
    refine ⟨p.outcome t, hp, ?_⟩
    rw [hresult, toOption_verdict t config hlimit]

/-- Delimiters in a literal are not looked at, and a lone `<` is no sign for an inequality. -/
theorem check_succeeds_with_literal :
    Text.size "f(a[0] < \")\")\n".toList + 2 ≤ maxOffset ∧
      ∃ outcome, check "f(a[0] < \")\")\n".toList ⟨['f'], 1⟩ = .ok outcome ∧
        outcome.result.toOption = some ⟨2, 1⟩ := by
  have hfits : Text.size "f(a[0] < \")\")\n".toList + 2 ≤ maxOffset := by decide
  obtain ⟨answer, hsome, hcounts, hchecks⟩ :=
    check_succeeds_iff_wellFormed "f(a[0] < \")\")\n".toList hfits
  have hwell : WellFormed "f(a[0] < \")\")\n".toList := by
    constructor
    · rfl
    · decide
    · decide
    · exact .nest .round (.nest .square .empty .empty) .empty
  refine ⟨hfits, ?_⟩
  obtain ⟨⟨pairs, lines⟩, rfl⟩ := Option.isSome_iff_exists.mp (hsome.mpr hwell)
  obtain ⟨outcome, hcheck, hresult⟩ := hchecks ⟨['f'], 1⟩ (by decide)
  obtain ⟨hpairs, hlines⟩ := hcounts _ rfl
  have htwo : pairs = 2 := by
    have hfour : (delimiters "f(a[0] < \")\")\n".toList).length = 4 := rfl
    change 2 * pairs = _ at hpairs
    omega
  have hone : lines = 1 := hlines
  refine ⟨outcome, hcheck, ?_⟩
  rw [hresult, htwo, hone]

end Check

end ParseReport
