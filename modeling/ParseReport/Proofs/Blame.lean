import ParseReport.Proofs.Acceptance
import ParseReport.Proofs.Excerpt

/-!
# What the diagnostics of a check point at

Each diagnostic of a check names something in the text, and its span covers just that. What a
site reports, it reports of itself and of the characters directly behind it, and the sites among
those have nothing to report of their own. So the spans of a scan come in text order and do not
overlap. The openers that were never consumed are reported last, in text order as well.
-/

namespace ParseReport

open Check in
/-- Whether the problem is one of `spelled`, which stands between the two other parts of a text. -/
def Problem.Blames (before spelled after : Text) : Problem → Prop
  | .extraCloser closer => spelled = [closer]
  | .mismatched opener closer => spelled = [closer] ∧ Delimiter.closing? opener ≠ some closer
  | .unclosed opener => spelled = [opener]
  | .obsolete _ _ => spelled = ['<', '>']
  | .earlyEnd _ => spelled = [] ∧ after = []
  | problem => problem = trailingBlanks spelled.length ∧ spelled ≠ [] ∧
      (∀ c ∈ spelled, isBlank c = true) ∧ before.getLast?.any isBlank = false ∧
      endsLine after = true

/-- The span of the first diagnostic begins before that of the second and ends where that begins
at the latest. -/
def Diagnostic.Precedes (d d' : Diagnostic) : Prop :=
  ∃ anchor anchor', d.anchor = some anchor ∧ d'.anchor = some anchor' ∧
    anchor.span.start < anchor'.span.start ∧ anchor.span.stop ≤ anchor'.span.start

/-- What a scan met comes first, the openers left over come last, and both in text order. -/
def Diagnostic.InScanOrder (row : List Diagnostic) : Prop :=
  ∃ met left, row = met ++ left ∧ (∀ d ∈ met, d.kind ≠ "unclosed".toList) ∧
    (∀ d ∈ left, d.kind = "unclosed".toList) ∧ met.Pairwise Precedes ∧ left.Pairwise Precedes

namespace Diagnostic

theorem InScanOrder.take {row : List Diagnostic} (h : InScanOrder row) (n : Nat) :
    InScanOrder (row.take n) := by
  obtain ⟨met, left, rfl, hmet, hleft, hmetOrder, hleftOrder⟩ := h
  refine ⟨met.take n, left.take (n - met.length), List.take_append, ?_, ?_, ?_, ?_⟩
  · exact fun d hd => hmet d (List.mem_of_mem_take hd)
  · exact fun d hd => hleft d (List.mem_of_mem_take hd)
  · exact hmetOrder.sublist (List.take_sublist _ _)
  · exact hleftOrder.sublist (List.take_sublist _ _)

end Diagnostic

namespace Check

/-- The characters behind the site that a report of it points at as well. -/
def Site.inner (s : Site) : Text :=
  if s.isOldInequality then ['>']
  else if s.beginsTrailing then s.after.takeWhile isBlank
  else []

/-- The characters that a report of the site points at. -/
def Site.spelling (s : Site) : Text := s.char :: s.inner

/-- What comes after them. -/
def Site.rest (s : Site) : Text := s.after.drop s.inner.length

/-- What a diagnostic holds that reports the site. -/
structure Site.Accounts (s : Site) (d : Diagnostic) : Prop where
  anchor : d.anchor = some (s.anchor s.spelling)
  advice : d.advice = none
  blames : d.problem.Blames s.before s.spelling s.rest
  /-- None of the characters can be taken for the end of a line. -/
  visible : ∀ c ∈ s.spelling, c ≠ '\n' ∧ c ≠ '\r'

namespace Site
variable {s s' : Site} {pending : List Site} {d d' : Diagnostic}

theorem inner_of_oldInequality (hold : s.isOldInequality = true) : s.inner = ['>'] :=
  if_pos hold

theorem inner_of_trailing (hold : s.isOldInequality = false) (htrailing : s.beginsTrailing = true) :
    s.inner = s.after.takeWhile isBlank := by
  rw [inner, hold, htrailing]
  rfl

theorem inner_of_neither (hold : s.isOldInequality = false)
    (htrailing : s.beginsTrailing = false) : s.inner = [] := by
  rw [inner, hold, htrailing]
  rfl

theorem after_eq (s : Site) : s.after = s.inner ++ s.rest := by
  have hprefix : s.inner <+: s.after := by
    cases hold : s.isOldInequality with
    | true =>
        obtain ⟨-, hhead⟩ := isOldInequality_iff.mp hold
        obtain ⟨more, hafter⟩ := List.head?_eq_some_iff.mp hhead
        rw [inner_of_oldInequality hold, hafter]
        exact ⟨more, rfl⟩
    | false =>
        cases htrailing : s.beginsTrailing with
        | true =>
            rw [inner_of_trailing hold htrailing]
            exact List.takeWhile_prefix isBlank
        | false =>
            rw [inner_of_neither hold htrailing]
            exact List.nil_prefix
  exact (List.prefix_iff_eq_append.mp hprefix).symm

/-- The first site comes before the second one in a text. -/
def Earlier (s s' : Site) : Prop := s.before ++ [s.char] <+: s'.before

/-- Nothing but the delimiter itself is reported of a delimiter. -/
theorem accounts_of_isDelimiter (hdelimiter : s.isDelimiter = true) {problem : Problem}
    (hblames : problem.Blames s.before [s.char] s.after) (severity : Severity) :
    s.Accounts ⟨.about problem (s.anchor [s.char]), severity⟩ := by
  obtain ⟨hold, htrailing⟩ := silent_of_isDelimiter hdelimiter
  have hinner : s.inner = [] := inner_of_neither hold htrailing
  have hspelling : s.spelling = [s.char] := by rw [spelling, hinner]
  have hrest : s.rest = s.after := by rw [rest, hinner]; rfl
  constructor
  · rw [hspelling]; rfl
  · rfl
  · rw [hspelling, hrest]; exact hblames
  · intro c hc
    rw [hspelling, List.mem_singleton] at hc
    subst hc
    constructor <;> intro hc <;> simp [isDelimiter, isOpener, isCloser, hc] at hdelimiter

theorem accounts_of_oldInequality (hold : s.isOldInequality = true) :
    s.Accounts ⟨.about (.obsolete "<>".toList "!=".toList) (s.anchor ['<', '>']), .worry⟩ := by
  have hspelling : s.spelling = ['<', '>'] := by
    rw [spelling, inner_of_oldInequality hold, (isOldInequality_iff.mp hold).1]
  constructor
  · rw [hspelling]; rfl
  · rfl
  · rw [hspelling]; rfl
  · rw [hspelling]
    simp

theorem accounts_of_trailing (htrailing : s.beginsTrailing = true) :
    s.Accounts ⟨.about (trailingBlanks s.blanks.length) (s.anchor s.blanks), .worry⟩ := by
  obtain ⟨hblank, hfirst, hend⟩ := beginsTrailing_iff.mp htrailing
  have hinner : s.inner = s.after.takeWhile isBlank :=
    inner_of_trailing (isOldInequality_of_blank hblank) htrailing
  have hspelling : s.spelling = s.blanks := by rw [spelling, hinner, blanks]
  have hrest : s.rest = s.after.dropWhile isBlank := by
    have hsplit := s.after_eq
    rw [hinner] at hsplit
    exact List.append_cancel_left (hsplit.symm.trans List.takeWhile_append_dropWhile.symm)
  have hblanks : ∀ c ∈ s.blanks, isBlank c = true := by
    intro c hc
    rcases List.mem_cons.mp hc with rfl | hc
    · exact hblank
    · exact List.mem_takeWhile_imp hc
  constructor
  · rw [hspelling]; rfl
  · rfl
  · rw [hspelling, hrest]
    exact ⟨rfl, List.cons_ne_nil _ _, hblanks, hfirst, hend⟩
  · intro c hc
    rw [hspelling] at hc
    have hc := hblanks c hc
    constructor <;> rintro rfl <;> cases hc

/-- A site reports itself, and never as an opener left over. -/
theorem accounts_of_mem_reports (h : d ∈ reports (s.acts pending)) :
    s.Accounts d ∧ d.kind ≠ "unclosed".toList := by
  cases hopener : isOpener s.char with
  | true =>
      rw [acts_of_opener pending hopener] at h
      exact absurd h List.not_mem_nil
  | false =>
      cases hcloser : isCloser s.char with
      | true =>
          have hdelimiter : s.isDelimiter = true := by simp [isDelimiter, hcloser]
          cases pending with
          | nil =>
              rw [acts_of_extra hopener hcloser] at h
              obtain rfl := List.mem_singleton.mp h
              refine ⟨accounts_of_isDelimiter hdelimiter ?_ .regret, ?_⟩
              · rfl
              · change "extra-paren".toList ≠ "unclosed".toList
                decide
          | cons opener pending =>
              rw [acts_of_closer opener pending hopener hcloser] at h
              split at h
              · exact absurd h List.not_mem_nil
              · next hfit =>
                obtain rfl := List.mem_singleton.mp h
                refine ⟨accounts_of_isDelimiter hdelimiter ?_ .regret, ?_⟩
                · exact And.intro rfl hfit
                · change "mismatched".toList ≠ "unclosed".toList
                  decide
      | false =>
          cases hold : s.isOldInequality with
          | true =>
              rw [acts_of_oldInequality pending hold] at h
              obtain rfl := List.mem_singleton.mp h
              refine ⟨accounts_of_oldInequality hold, ?_⟩
              change "obsolete".toList ≠ "unclosed".toList
              decide
          | false =>
              cases htrailing : s.beginsTrailing with
              | true =>
                  rw [acts_of_blank pending (beginsTrailing_iff.mp htrailing).1,
                    if_pos htrailing] at h
                  obtain rfl := List.mem_singleton.mp h
                  refine ⟨accounts_of_trailing htrailing, ?_⟩
                  change "trailing-whitespace".toList ≠ "unclosed".toList
                  decide
              | false =>
                  rw [acts_of_neither pending hopener hcloser hold htrailing] at h
                  exact absurd h List.not_mem_nil

/-- The report of the site as an opener left over. -/
def leftOver (s : Site) : Diagnostic :=
  ⟨.about (.unclosed s.char) (s.anchor [s.char]), .regret⟩

theorem accounts_leftOver (hopener : isOpener s.char = true) : s.Accounts s.leftOver := by
  apply accounts_of_isDelimiter (by simp [isDelimiter, hopener])
  rfl

namespace Accounts

end Accounts
end Site

section Row
variable {t : Text} {row pending : List Site} {d : Diagnostic}

theorem pairwise_sitesFrom (before : Text) (mode : Mode) (t : Text) :
    (sitesFrom before mode t).Pairwise Site.Earlier := by
  induction t generalizing before mode with
  | nil => exact .nil
  | cons c t ih =>
      rw [sitesFrom]
      split
      · refine .cons ?_ (ih _ _)
        intro s hs
        obtain ⟨part, hbefore, -⟩ := mem_sitesFrom_iff.mp hs
        exact ⟨part, hbefore.symm⟩
      · exact ih _ _

theorem text_of_mem_sites {s : Site} (hs : s ∈ sites t) : s.text = t := (mem_sites_iff.mp hs).1

theorem exists_mem_of_mem_reports (h : d ∈ reports (actsFrom pending row)) :
    ∃ s ∈ row, ∃ pending', d ∈ reports (s.acts pending') := by
  induction row generalizing pending with
  | nil => exact absurd h List.not_mem_nil
  | cons s row ih =>
      rw [actsFrom, reports_append, List.mem_append] at h
      rcases h with h | h
      · exact ⟨s, List.mem_cons_self, pending, h⟩
      · obtain ⟨s', hs', hd⟩ := ih h
        exact ⟨s', List.mem_cons_of_mem s hs', hd⟩

/-- Openers left over are in the order of the text. -/
theorem reverse_pendingFrom_sublist (pending row : List Site) :
    (pendingFrom pending row).reverse.Sublist
      (pending.reverse ++ row.filter (fun s => isOpener s.char)) := by
  induction row generalizing pending with
  | nil => simp [pendingFrom]
  | cons s row ih =>
      have hpending : pendingFrom pending (s :: row) = pendingFrom (s.consume pending) row := rfl
      rw [hpending, List.filter_cons]
      apply (ih (s.consume pending)).trans
      cases hopener : isOpener s.char with
      | true => simp [Site.consume_of_opener pending hopener]
      | false =>
          apply List.Sublist.append_right
          rw [List.reverse_sublist]
          cases hcloser : isCloser s.char with
          | true =>
              rw [Site.consume_of_closer pending hopener hcloser]
              exact List.tail_sublist pending
          | false => rw [Site.consume_of_neither pending hopener hcloser]

theorem reports_unclosed (openers : List Site) :
    reports (openers.map Site.unclosed) = openers.map Site.leftOver := by
  rw [reports, List.filterMap_map, ← List.filterMap_eq_map]
  rfl

/-- The findings are what the sites report, with openers among them reported again at the end. -/
theorem exists_findings_eq (t : Text) :
    ∃ openers : List Site, openers.Sublist ((sites t).filter (fun s => isOpener s.char)) ∧
      findings t = reports (actsFrom [] (sites t)) ++ openers.map Site.leftOver := by
  have hsites : sitesFrom [] .outside t = sites t := rfl
  rw [findings, acts, restActs, reports_append, hsites]
  split
  · have hsublist := reverse_pendingFrom_sublist [] (sites t)
    rw [List.reverse_nil, List.nil_append] at hsublist
    exact ⟨_, hsublist, by rw [reports_unclosed]⟩
  · exact ⟨[], List.nil_sublist _, rfl⟩

/-- Every finding is of a site. -/
theorem exists_accounts_of_mem_findings (h : d ∈ findings t) : ∃ s ∈ sites t, s.Accounts d := by
  obtain ⟨openers, hopeners, hfindings⟩ := exists_findings_eq t
  rw [hfindings, List.mem_append] at h
  rcases h with h | h
  · obtain ⟨s, hs, pending, hd⟩ := exists_mem_of_mem_reports h
    exact ⟨s, hs, (Site.accounts_of_mem_reports hd).1⟩
  · obtain ⟨s, hs, rfl⟩ := List.mem_map.mp h
    obtain ⟨hs, hopener⟩ := List.mem_filter.mp (hopeners.subset hs)
    exact ⟨s, hs, Site.accounts_leftOver hopener⟩

end Row

section Verdict
variable {t : Text}

end Verdict

end Check

end ParseReport
