import ParseReport.Proofs.Blame
import ParseReport.Proofs.Trace

/-!
# The log of a check tells what happened

A log begins with the start of the check and ends with the end of the session, as the result has
it, or with the summary directly after that. In between the delimiters are logged at their places
in text order, and where a check succeeds they are logged as a nested word in which every closer
comes with the opener it meets.
-/

namespace ParseReport

open Check in
/-- Whether a session that ends with this event gives the result. -/
def Session.Event.Ends (config : Config) (result : Except Error Summary) :
    Session.Event → Prop
  | .concludedCleanly filename => filename = config.filename ∧ ∃ summary, result = .ok summary
  | .concludedWithConcerns count filename =>
    ∃ diagnostics, result = .error (.reported ⟨filename, diagnostics, .concerns⟩) ∧
      count = diagnostics.length
  | .panicRaised kind _ filename =>
    ∃ d, result = .error (.reported ⟨filename, [d], .panic⟩) ∧ kind = d.kind
  | .limitReached severity kind limit count filename =>
    ∃ earlier d, result = .error (.reported ⟨filename, earlier ++ [d], .limitExceeded limit⟩) ∧
      severity = d.severity ∧ kind = d.kind ∧ count = (earlier ++ [d]).length
  | _ => False

namespace Check
open Delimiter
variable {config : Config} {t : Text}

section Ending
variable {held : Nat} {called : List Act}

/-- Whether the event can be followed by others of the scan. -/
def Event.isPassing : Event → Bool
  | opened .. => true
  | closed .. => true
  | session (.buffered ..) => true
  | _ => false

/-- What is logged of a result after the session has ended. -/
def summaryEvents : Except Error Summary → List Event
  | .ok summary => [.finished summary.pairs summary.lines]
  | .error _ => []

theorem isPassing_mark? {act : Act} : ∀ e ∈ act.mark?.toList, e.isPassing = true := by
  cases act <;> simp [Act.mark?, Event.isPassing]

theorem isPassing_actEvents (hbelow : held + (reports called).length < config.limit.toNat) :
    ∀ e ∈ actEvents config held called, e.isPassing = true := by
  induction called generalizing held with
  | nil => exact fun e he => absurd he List.not_mem_nil
  | cons act called ih =>
      cases hreport : act.report? with
      | none =>
          rw [reports_of_silent hreport] at hbelow
          rw [actEvents_of_silent hreport, List.forall_mem_append]
          exact ⟨isPassing_mark?, ih hbelow⟩
      | some d =>
          rw [reports_of_report? hreport, List.length_cons] at hbelow
          have hroom : ¬config.limit.toNat ≤ held + 1 := by omega
          rw [actEvents_of_report? hreport, reportEvent, if_neg hroom, if_neg hroom,
            List.forall_mem_cons]
          exact ⟨rfl, ih (by omega)⟩

/-- Where there are reports enough, the one that reaches the limit ends the log of the acts. -/
theorem exists_limitReached (hheld : held < config.limit.toNat)
    (hfull : config.limit.toNat ≤ held + (reports called).length) :
    ∃ body earlier d, actEvents config held called = body ++
        [.session (.limitReached d.severity d.kind config.limit.toNat config.limit.toNat
          config.filename)] ∧
      (∀ e ∈ body, e.isPassing = true) ∧
      (reports called).take (config.limit.toNat - held) = earlier ++ [d] := by
  induction called generalizing held with
  | nil =>
      have hzero : (reports []).length = 0 := rfl
      omega
  | cons act called ih =>
      cases hreport : act.report? with
      | none =>
          rw [reports_of_silent hreport] at hfull ⊢
          obtain ⟨body, earlier, d, hevents, hbody, htaken⟩ := ih hheld hfull
          refine ⟨act.mark?.toList ++ body, earlier, d, ?_, ?_, htaken⟩
          · rw [actEvents_of_silent hreport, hevents, List.append_assoc]
          · rw [List.forall_mem_append]
            exact ⟨isPassing_mark?, hbody⟩
      | some d =>
          rw [reports_of_report? hreport] at hfull ⊢
          rw [List.length_cons] at hfull
          rw [actEvents_of_report? hreport, reportEvent]
          by_cases hlast : config.limit.toNat ≤ held + 1
          · have heq : held + 1 = config.limit.toNat := by omega
            have hone : config.limit.toNat - held = 1 := by omega
            refine ⟨[], [], d, ?_, fun e he => absurd he List.not_mem_nil, by rw [hone]; rfl⟩
            rw [if_pos hlast, if_pos hlast, heq]
            rfl
          · obtain ⟨body, earlier, last, hevents, hbody, htaken⟩ :=
              @ih (held + 1) (by omega) (by omega)
            have hmore : config.limit.toNat - held = config.limit.toNat - (held + 1) + 1 := by
              omega
            refine ⟨.session (.buffered d.severity d.kind (held + 1)) :: body, d :: earlier, last,
              ?_, List.forall_mem_cons.mpr ⟨rfl, hbody⟩, ?_⟩
            · rw [if_neg hlast, if_neg hlast, hevents]
              rfl
            · rw [hmore, List.take_succ_cons, htaken]
              rfl

/-- A trace ends as the verdict says. -/
theorem exists_ending (hlimit : config.limit ≠ 0) :
    ∃ body ending, trace t config = .started config.filename ::
        (body ++ .session ending :: summaryEvents (verdict t config)) ∧
      (∀ e ∈ body, e.isPassing = true) ∧ ending.Ends config (verdict t config) := by
  have hpositive : 0 < config.limit.toNat := (Session.fresh config hlimit).limit_pos
  rw [trace, verdict]
  by_cases hfull : config.limit.toNat ≤ (findings t).length
  · have hreports : config.limit.toNat ≤ 0 + (reports (acts t)).length := by
      rw [Nat.zero_add]
      exact hfull
    obtain ⟨body, earlier, d, hevents, hbody, htaken⟩ := exists_limitReached hpositive hreports
    have hfindings : (findings t).take config.limit.toNat = earlier ++ [d] := htaken
    have hcount : config.limit.toNat = (earlier ++ [d]).length := by
      rw [← hfindings, List.length_take, Nat.min_eq_left hfull]
    rw [if_pos hfull, if_pos hfull, hevents, hfindings, List.append_nil]
    exact ⟨body, _, rfl, hbody, earlier, d, rfl, rfl, rfl, hcount⟩
  · have hbelow : 0 + (reports (acts t)).length < config.limit.toNat := by
      rw [Nat.zero_add]
      exact Nat.not_le.mp hfull
    have hbody := isPassing_actEvents hbelow
    rw [if_neg hfull, if_neg hfull, endEvents]
    cases hliteral : openLiteral? t with
    | some quote => exact ⟨_, _, rfl, hbody, _, rfl, rfl⟩
    | none =>
        by_cases hnone : findings t = []
        · simp only [if_pos hnone]
          exact ⟨_, _, rfl, hbody, rfl, _, rfl⟩
        · simp only [if_neg hnone]
          exact ⟨_, _, rfl, hbody, _, rfl, rfl⟩

end Ending

section Marks
variable {s : Site} {row : List Site} {opener : Char}

/-- The event that is due for the site if its delimiter opens or meets its partner. -/
def Site.mark? (s : Site) : Option Event :=
  if isOpener s.char then some (.opened s.char s.before.size)
  else if isCloser s.char then
    (Delimiter.opening? s.char).map fun opener => .closed opener s.char s.before.size
  else none

theorem Site.mark?_of_opener (hopener : isOpener s.char = true) :
    s.mark? = some (.opened s.char s.before.size) :=
  if_pos hopener

theorem Site.mark?_of_closer (hcloser : isCloser s.char = true)
    (hpair : closing? opener = some s.char) :
    s.mark? = some (.closed opener s.char s.before.size) := by
  rw [mark?, (kind_of_closer hcloser).1, hcloser, closing?_eq_some_iff.mp hpair]
  rfl

theorem Site.mark?_of_neither (h : s.isDelimiter = false) : s.mark? = none := by
  rw [isDelimiter, Bool.or_eq_false_iff] at h
  rw [mark?, h.1, h.2]
  rfl

/-- The acts for a site log its mark, unless they report it. -/
theorem Site.marks_acts (pending : List Site) (s : Site) :
    (s.acts pending).filterMap Act.mark? = s.mark?.toList ∨
      (s.acts pending).filterMap Act.mark? = [] ∧ reports (s.acts pending) ≠ [] := by
  cases hopener : isOpener s.char with
  | true =>
      rw [acts_of_opener pending hopener, mark?_of_opener hopener]
      exact .inl rfl
  | false =>
      cases hcloser : isCloser s.char with
      | true =>
          cases pending with
          | nil =>
              rw [acts_of_extra hopener hcloser]
              exact .inr ⟨rfl, List.cons_ne_nil _ _⟩
          | cons opener pending =>
              rw [acts_of_closer opener pending hopener hcloser]
              split
              · next hpair =>
                rw [mark?_of_closer hcloser hpair]
                exact .inl rfl
              · exact .inr ⟨rfl, List.cons_ne_nil _ _⟩
      | false =>
          have hneither : s.isDelimiter = false := by
            rw [isDelimiter, hopener, hcloser]
            rfl
          rw [mark?_of_neither hneither]
          left
          simp only [acts, hopener, hcloser, Bool.false_eq_true, if_false]
          split
          · rfl
          · split <;> rfl

theorem filterMap_mark?_cons (s : Site) (row : List Site) :
    (s :: row).filterMap Site.mark? = s.mark?.toList ++ row.filterMap Site.mark? := by
  cases h : s.mark? <;> simp [h]

theorem marks_actsFrom_sublist (pending row : List Site) :
    ((actsFrom pending row).filterMap Act.mark?).Sublist (row.filterMap Site.mark?) := by
  induction row generalizing pending with
  | nil => exact List.nil_sublist _
  | cons s row ih =>
      rw [actsFrom, List.filterMap_append, filterMap_mark?_cons]
      refine List.Sublist.append ?_ (ih _)
      rcases s.marks_acts pending with hmark | ⟨hnone, -⟩
      · rw [hmark]
      · rw [hnone]
        exact List.nil_sublist _

/-- Where nothing is reported, every delimiter is logged. -/
theorem marks_actsFrom {pending : List Site} (h : reports (actsFrom pending row) = []) :
    (actsFrom pending row).filterMap Act.mark? = row.filterMap Site.mark? := by
  induction row generalizing pending with
  | nil => rfl
  | cons s row ih =>
      rw [actsFrom, reports_append, List.append_eq_nil_iff] at h
      rw [actsFrom, List.filterMap_append, filterMap_mark?_cons, ih h.2]
      rcases s.marks_acts pending with hmark | ⟨-, hreports⟩
      · rw [hmark]
      · exact absurd h.1 hreports

theorem marks_acts_eq (t : Text) :
    (acts t).filterMap Act.mark? = (actsFrom [] (sites t)).filterMap Act.mark? := by
  have hunclosed : ∀ openers : List Site,
      (openers.map Site.unclosed).filterMap Act.mark? = [] := by
    intro openers
    rw [List.filterMap_map]
    exact List.filterMap_eq_nil_iff.mpr fun _ _ => rfl
  rw [acts, restActs, List.filterMap_append]
  split
  · rw [hunclosed, List.append_nil]
    rfl
  · exact List.append_nil _

theorem marks_trace_sublist (t : Text) (config : Config) :
    ((trace t config).filter Event.isMark).Sublist ((sites t).filterMap Site.mark?) := by
  rw [marks_trace]
  have hprefix := marks_actEvents_prefix config 0 (acts t)
  rw [marks_acts_eq] at hprefix
  exact hprefix.sublist.trans (marks_actsFrom_sublist [] (sites t))

theorem marks_trace_of_wellFormed (hlimit : config.limit ≠ 0) (h : WellFormed t) :
    (trace t config).filter Event.isMark = (sites t).filterMap Site.mark? := by
  obtain ⟨hclosed, hnone⟩ := wellFormed_iff.mp h
  have hbelow : 0 + (reports (acts t)).length < config.limit.toNat := by
    have hpositive : 0 < config.limit.toNat := (Session.fresh config hlimit).limit_pos
    have hreports : reports (acts t) = [] := hnone
    rwa [hreports]
  rw [marks_trace, marks_actEvents hbelow, marks_acts_eq,
    marks_actsFrom ((findings_eq_nil_iff hclosed).mp hnone).1]

end Marks

section Places

/-- Where the delimiter of the event stands. -/
def Event.offset? : Event → Option Nat
  | opened _ offset => some offset
  | closed _ _ offset => some offset
  | _ => none

/-- The event is of the delimiter at the site. -/
def Event.StandsAt (s : Site) : Event → Prop
  | opened delimiter offset =>
    isOpener delimiter = true ∧ s.char = delimiter ∧ s.before.size = offset
  | closed opener closer offset =>
    Partners opener closer ∧ s.char = closer ∧ s.before.size = offset
  | _ => False

theorem Site.standsAt_of_mark? {s : Site} {e : Event} (h : s.mark? = some e) :
    e.StandsAt s ∧ e.offset? = some s.before.size := by
  rw [mark?] at h
  split at h
  · next hopener =>
    cases h
    exact ⟨⟨hopener, rfl, rfl⟩, rfl⟩
  · split at h
    · next hcloser =>
      obtain ⟨opener, hpair, rfl⟩ := Option.map_eq_some_iff.mp h
      have hpartners := partners_of_closer hcloser (closing?_eq_some_iff.mpr hpair)
      exact ⟨⟨hpartners, rfl, rfl⟩, rfl⟩
    · cases h

theorem Site.Earlier.size_lt {s s' : Site} (h : s.Earlier s') :
    s.before.size < s'.before.size := by
  obtain ⟨more, hbefore⟩ := h
  have := s.char.utf8Size_pos
  rw [← hbefore, Text.size_append, Text.size_append, Text.size_cons]
  omega

/-- The marks of a text come in the order of the text. -/
theorem pairwise_offset?_marks (t : Text) :
    (((sites t).filterMap Site.mark?).filterMap Event.offset?).Pairwise (· < ·) := by
  have hsites : (sites t).Pairwise Site.Earlier := pairwise_sitesFrom [] .outside t
  rw [List.filterMap_filterMap]
  refine hsites.filterMap _ ?_
  intro s s' hearlier offset hoffset offset' hoffset'
  obtain ⟨e, hmark, he⟩ := Option.bind_eq_some_iff.mp hoffset
  obtain ⟨e', hmark', he'⟩ := Option.bind_eq_some_iff.mp hoffset'
  obtain rfl : s.before.size = offset :=
    Option.some.inj ((Site.standsAt_of_mark? hmark).2.symm.trans he)
  obtain rfl : s'.before.size = offset' :=
    Option.some.inj ((Site.standsAt_of_mark? hmark').2.symm.trans he')
  exact hearlier.size_lt

theorem filterMap_offset?_eq (log : List Event) :
    log.filterMap Event.offset? = (log.filter Event.isMark).filterMap Event.offset? := by
  rw [List.filterMap_filter]
  apply List.filterMap_congr
  intro e _
  cases e <;> rfl

end Places

section Nesting

/-- Logged delimiters that are well nested, where every closer is logged with the opener that it
meets. -/
inductive Nested : List Event → Prop
  | empty : Nested []
  | nest {opener closer : Char} {start stop : Nat} {inner later : List Event} :
    Partners opener closer → Nested inner → Nested later →
      Nested (.opened opener start :: inner ++ .closed opener closer stop :: later)

/-- The partner of a closer is known, so the delimiters determine the names. -/
theorem nested_of_balanced {word : List Char} (h : Balanced word) {row : List Site}
    (hrow : row.map Site.char = word) : Nested (row.filterMap Site.mark?) := by
  induction h generalizing row with
  | empty =>
      obtain rfl := List.map_eq_nil_iff.mp hrow
      exact .empty
  | nest hpartners _ _ ihinner ihlater =>
      obtain ⟨s, behind, rfl, rfl, hbehind⟩ := List.map_eq_cons_iff.mp hrow
      obtain ⟨inner, rest, rfl, hinner, hrest⟩ := List.map_eq_append_iff.mp hbehind
      obtain ⟨s', later, rfl, rfl, hlater⟩ := List.map_eq_cons_iff.mp hrest
      obtain ⟨hopener, -, hpair⟩ := hpartners.spec
      have hcloser := hpartners.isCloser_closer
      rw [List.filterMap_cons_some (Site.mark?_of_opener hopener), List.filterMap_append,
        List.filterMap_cons_some (Site.mark?_of_closer hcloser hpair)]
      exact .nest hpartners (ihinner hinner) (ihlater hlater)

theorem nested_marks {t : Text} (h : WellFormed t) :
    Nested ((sites t).filterMap Site.mark?) := by
  have hdelimiters : ((sites t).filter Site.isDelimiter).filterMap Site.mark? =
      (sites t).filterMap Site.mark? := by
    rw [List.filterMap_filter]
    apply List.filterMap_congr
    intro s _
    split
    · rfl
    · next hneither => exact (Site.mark?_of_neither (Bool.eq_false_iff.mpr hneither)).symm
  rw [← hdelimiters]
  exact nested_of_balanced h.balanced rfl

end Nesting

/-- The log of a check of a text that fits begins with its start, has the end of the session once,
in the way the result has it, and after that no more than the summary of a success. The delimiters
in it stand at their places and come in text order. Where the check succeeds, they are well nested,
each closer with its opener, and there are as many closers as pairs. -/
theorem check_log_is_faithful (t : Text) (config : Config) (hfits : t.size + 2 ≤ maxOffset)
    (hlimit : config.limit ≠ 0) :
    ∃ outcome, check t config = .ok outcome ∧
      (∃ body ending, outcome.log = .started config.filename ::
          (body ++ .session ending :: summaryEvents outcome.result) ∧
        (∀ e ∈ body, e.isPassing = true) ∧ ending.Ends config outcome.result) ∧
      (outcome.log.filterMap Event.offset?).Pairwise (· < ·) ∧
      (∀ e ∈ outcome.log, e.isMark = true → ∃ s ∈ sites t, e.StandsAt s) ∧
      ∀ summary, outcome.result = .ok summary →
        Nested (outcome.log.filter Event.isMark) ∧
          outcome.log.countP Event.isClosed = summary.pairs := by
  have hstart := start_holds hlimit
  obtain ⟨p, hscan, -, hresult⟩ := scan_verdict hfits hstart
  obtain ⟨hlog, -⟩ := scan_trace hfits hstart hscan
  have hcheck := check_of_scan hfits hlimit hscan
  have hmarks := marks_trace_sublist t config
  refine ⟨p.outcome t, hcheck, ?_⟩
  rw [hlog, hresult]
  refine ⟨exists_ending hlimit, ?_, ?_, ?_⟩
  · rw [filterMap_offset?_eq]
    exact (pairwise_offset?_marks t).sublist (hmarks.filterMap _)
  · intro e he hmark
    have hmem := hmarks.subset (List.mem_filter.mpr ⟨he, hmark⟩)
    obtain ⟨s, hs, hsmark⟩ := List.mem_filterMap.mp hmem
    exact ⟨s, hs, (Site.standsAt_of_mark? hsmark).1⟩
  · intro summary hok
    have hsummary : summary? t = some summary := by
      rw [← toOption_verdict t config hlimit, hok]
      rfl
    obtain ⟨hwell, rfl⟩ := eq_of_mem_summary? hsummary
    have hbelow : (findings t).length < config.limit.toNat := by
      rw [(wellFormed_iff.mp hwell).2]
      exact (Session.fresh config hlimit).limit_pos
    rw [marks_trace_of_wellFormed hlimit hwell]
    exact ⟨nested_marks hwell, countP_isClosed_trace hbelow⟩

/-- Two pairs, one in the other; the parenthesis in the literal is not logged. -/
theorem check_log_of_two_pairs :
    Text.size "(a[\")\"])\n".toList + 2 ≤ maxOffset ∧ (⟨['f'], 1⟩ : Config).limit ≠ 0 ∧
      ∃ outcome, check "(a[\")\"])\n".toList ⟨['f'], 1⟩ = .ok outcome ∧
        outcome.result = .ok ⟨2, 1⟩ ∧
        (∃ body ending, outcome.log = .started ['f'] ::
          (body ++ [.session ending, .finished 2 1]) ∧ ∀ e ∈ body, e.isPassing = true) ∧
        Nested (outcome.log.filter Event.isMark) ∧ outcome.log.countP Event.isClosed = 2 := by
  have hfits : Text.size "(a[\")\"])\n".toList + 2 ≤ maxOffset := by decide
  have hlimit : (⟨['f'], 1⟩ : Config).limit ≠ 0 := by decide
  obtain ⟨p, hp, -, hresult⟩ := check_eq_outcome hfits ⟨['f'], 1⟩ hlimit
  obtain ⟨outcome, hcheck, ⟨body, ending, hlog, hbody, -⟩, -, -, hnested⟩ :=
    check_log_is_faithful "(a[\")\"])\n".toList ⟨['f'], 1⟩ hfits hlimit
  obtain rfl : outcome = p.outcome _ := Except.ok.inj (hcheck.symm.trans hp)
  have hverdict : verdict "(a[\")\"])\n".toList ⟨['f'], 1⟩ = .ok ⟨2, 1⟩ := rfl
  rw [hverdict] at hresult
  rw [hresult] at hlog
  exact ⟨hfits, hlimit, _, hcheck, hresult, ⟨body, ending, hlog, hbody⟩, hnested _ hresult⟩

end Check

end ParseReport
