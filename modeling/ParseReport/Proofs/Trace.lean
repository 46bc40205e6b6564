import ParseReport.Proofs.SessionUse

/-!
# What a check logs

The log of a check can be written down from the acts of its text. An act on a delimiter is logged
as it is, reports are logged with their number, and the report that reaches the limit is the last
to be logged. Where no report does, the end of the session comes last, or the summary after it
when nothing was found.
-/

namespace ParseReport.Check

/-- The event that logs an act on a delimiter. -/
def Act.mark? : Act → Option Event
  | opened delimiter offset => some (.opened delimiter offset)
  | closed opener closer offset => some (.closed opener closer offset)
  | worry _ => none
  | regret _ => none

/-- What an active session that holds `held` reports logs for one more. -/
def reportEvent (config : Config) (held : Nat) (d : Diagnostic) : Session.Event :=
  if config.limit.toNat ≤ held + 1 then
    .limitReached d.severity d.kind config.limit.toNat (held + 1) config.filename
  else
    .buffered d.severity d.kind (held + 1)

/-- What is logged for acts that come after `held` reports. -/
def actEvents (config : Config) : Nat → List Act → List Event
  | _, [] => []
  | held, act :: acts =>
    match act.report? with
    | none => act.mark?.toList ++ actEvents config held acts
    | some d =>
      .session (reportEvent config held d) ::
        if config.limit.toNat ≤ held + 1 then [] else actEvents config (held + 1) acts

/-- What is logged after the acts of a text that stay below the limit. -/
def endEvents (t : Text) (config : Config) : List Event :=
  match openLiteral? t with
  | some quote =>
    [.session (.panicRaised (cutOff t quote).problem.kind (findings t).length config.filename)]
  | none =>
    if findings t = [] then
      [.session (.concludedCleanly config.filename), .finished (pairs t) t.lineCount]
    else
      [.session (.concludedWithConcerns (findings t).length config.filename)]

/-- The whole log of a check. -/
def trace (t : Text) (config : Config) : List Event :=
  .started config.filename :: (actEvents config 0 (acts t) ++
    if config.limit.toNat ≤ (findings t).length then [] else endEvents t config)

variable {config : Config} {done : List Act} {s : Scan} {p : Progress} {t : Text}

section Acts
variable {held : Nat} {act : Act} {called : List Act} {d : Diagnostic}

theorem mark?_of_report? (hreport : act.report? = some d) : act.mark? = none := by
  cases act with
  | opened delimiter offset => cases hreport
  | closed opener closer offset => cases hreport
  | worry concern => rfl
  | regret concern => rfl

theorem actEvents_of_silent (hreport : act.report? = none) :
    actEvents config held (act :: called) = act.mark?.toList ++ actEvents config held called := by
  rw [actEvents, hreport]

theorem actEvents_of_report? (hreport : act.report? = some d) :
    actEvents config held (act :: called) =
      .session (reportEvent config held d) ::
        if config.limit.toNat ≤ held + 1 then [] else actEvents config (held + 1) called := by
  rw [actEvents, hreport]

theorem reports_of_silent (hreport : act.report? = none) :
    reports (act :: called) = reports called :=
  List.filterMap_cons_none hreport

theorem reports_of_report? (hreport : act.report? = some d) :
    reports (act :: called) = d :: reports called :=
  List.filterMap_cons_some hreport

/-- Whether the event is of a delimiter that opened or was closed. -/
def Event.isMark : Event → Bool
  | opened .. => true
  | closed .. => true
  | _ => false

/-- Whether the event is of a delimiter that was closed. -/
def Event.isClosed : Event → Bool
  | closed .. => true
  | _ => false

theorem filterMap_mark?_of_silent (hreport : act.report? = none) :
    (act :: called).filterMap Act.mark? =
      act.mark?.toList.filter Event.isMark ++ called.filterMap Act.mark? := by
  cases act with
  | opened delimiter offset => rfl
  | closed opener closer offset => rfl
  | worry concern => cases hreport
  | regret concern => cases hreport

theorem filterMap_mark?_of_report? (hreport : act.report? = some d) :
    (act :: called).filterMap Act.mark? = called.filterMap Act.mark? :=
  List.filterMap_cons_none (mark?_of_report? hreport)

theorem marks_actEvents (hbelow : held + (reports called).length < config.limit.toNat) :
    (actEvents config held called).filter Event.isMark = called.filterMap Act.mark? := by
  induction called generalizing held with
  | nil => rfl
  | cons act called ih =>
      cases hreport : act.report? with
      | none =>
          rw [reports_of_silent hreport] at hbelow
          rw [actEvents_of_silent hreport, List.filter_append, ih hbelow,
            filterMap_mark?_of_silent hreport]
      | some d =>
          rw [reports_of_report? hreport, List.length_cons] at hbelow
          have hroom : ¬config.limit.toNat ≤ held + 1 := by omega
          rw [actEvents_of_report? hreport, if_neg hroom, filterMap_mark?_of_report? hreport]
          exact ih (by omega)

/-- A report that reaches the limit keeps later acts from being logged. -/
theorem marks_actEvents_prefix (config : Config) (held : Nat) (called : List Act) :
    (actEvents config held called).filter Event.isMark <+: called.filterMap Act.mark? := by
  induction called generalizing held with
  | nil => exact List.nil_prefix
  | cons act called ih =>
      cases hreport : act.report? with
      | none =>
          rw [actEvents_of_silent hreport, List.filter_append, filterMap_mark?_of_silent hreport]
          exact (List.prefix_append_right_inj _).mpr (ih held)
      | some d =>
          rw [actEvents_of_report? hreport, filterMap_mark?_of_report? hreport]
          split
          · exact List.nil_prefix
          · exact ih (held + 1)

theorem marks_trace (t : Text) (config : Config) :
    (trace t config).filter Event.isMark =
      (actEvents config 0 (acts t)).filter Event.isMark := by
  have hend : (endEvents t config).filter Event.isMark = [] := by
    rw [endEvents]
    split
    · rfl
    · split <;> rfl
  rw [trace, List.filter_cons_of_neg Bool.false_ne_true, List.filter_append]
  split
  · exact List.append_nil _
  · rw [hend, List.append_nil]

/-- Below the limit every pair is logged. -/
theorem countP_isClosed_trace (hbelow : (findings t).length < config.limit.toNat) :
    (trace t config).countP Event.isClosed = pairs t := by
  have hmark : ∀ e : Event, (e.isClosed && e.isMark) = e.isClosed := by
    intro e
    cases e <;> rfl
  have hpair : ∀ act : Act, (act.mark?.map Event.isClosed).getD false = act.isPair := by
    intro act
    cases act <;> rfl
  have hacts : 0 + (reports (acts t)).length < config.limit.toNat := by
    rw [Nat.zero_add]
    exact hbelow
  calc
    (trace t config).countP Event.isClosed
        = ((trace t config).filter Event.isMark).countP Event.isClosed := by
      rw [List.countP_filter]
      simp only [hmark]
    _ = ((acts t).filterMap Act.mark?).countP Event.isClosed := by
      rw [marks_trace, marks_actEvents hacts]
    _ = pairs t := by
      rw [List.countP_filterMap]
      simp only [hpair]
      rfl

end Acts

theorem Scan.log_follow {outcome : Session.Outcome} (hfollow : s.follow (.ok outcome) = .ok p) :
    p.scan.log.toList = s.log.toList ++ [.session outcome.event] := by
  rw [Scan.scan_follow hfollow]
  exact Array.toList_push

/-- An act that reports nothing is logged by its mark. -/
theorem Scan.log_perform_of_silent {act : Act} (hreport : act.report? = none) :
    ∃ s', s.perform act = .ok (.going s') ∧
      s'.log.toList = s.log.toList ++ act.mark?.toList := by
  cases act with
  | opened delimiter offset => exact ⟨_, rfl, Array.toList_push⟩
  | closed opener closer offset => exact ⟨_, rfl, Array.toList_push⟩
  | worry concern => cases hreport
  | regret concern => cases hreport

/-- Once the session is over, its end adds nothing to the log. -/
theorem Progress.log_outcome (hover : p.session.IsOver) :
    (p.outcome t).log = p.scan.log.toList ++
      match p with
      | going s => [.finished s.pairs t.lineCount]
      | failed _ _ => [] := by
  cases p with
  | going s =>
      have hdrop : s.session.dropEvent? = none := dropEvent?_of_isOver hover
      simp [outcome, Scan.closedLog, hdrop, Scan.note, Progress.scan]
  | failed s failure =>
      have hdrop : s.session.dropEvent? = none := dropEvent?_of_isOver hover
      simp [outcome, Scan.closedLog, hdrop, Progress.scan]

namespace Scan.Holds

theorem event_reportOutcome (h : s.Holds config done) (d : Diagnostic) :
    (s.session.reportOutcome d).event = reportEvent config (reports done).length d := by
  rw [Session.reportOutcome, reportEvent, h.limit, h.filename, h.size_eq]
  split <;> rfl

theorem log_play (h : s.Holds config done) {acts : List Act} (hplay : s.play acts = .ok p) :
    p.scan.log.toList = s.log.toList ++ actEvents config (reports done).length acts := by
  induction acts generalizing s done with
  | nil =>
      cases hplay
      exact (List.append_nil _).symm
  | cons act acts ih =>
      obtain ⟨q, hq, hreaches⟩ := h.perform act
      have hreports := reports_concat done act
      rw [Scan.play, hq] at hplay
      cases hreport : act.report? with
      | none =>
          obtain ⟨s', hs', hlog⟩ := log_perform_of_silent (s := s) hreport
          obtain rfl : q = .going s' := Except.ok.inj (hq.symm.trans hs')
          rw [hreport, Option.toList_none, List.append_nil] at hreports
          rw [ih hreaches hplay, hlog, hreports, actEvents_of_silent hreport, List.append_assoc]
      | some d =>
          rw [h.perform_of_report? hreport] at hq
          have hlog := log_follow hq
          have hlength : (reports (done ++ [act])).length = (reports done).length + 1 := by
            rw [hreports, hreport, Option.toList_some, List.length_append,
              List.length_singleton]
          rw [h.event_reportOutcome] at hlog
          rw [actEvents_of_report? hreport]
          cases q with
          | going s' =>
              have hroom : ¬config.limit.toNat ≤ (reports done).length + 1 := by
                rw [← hlength]
                exact Nat.not_le.mpr hreaches.below
              rw [Progress.scan] at hlog
              rw [if_neg hroom, ih hreaches hplay, hlength, hlog, List.append_assoc,
                List.singleton_append]
          | failed s' failure =>
              cases hplay
              have hfull : config.limit.toNat ≤ (reports done).length + 1 := by
                rw [← hlength]
                exact hreaches.2.1
              rw [if_pos hfull]
              exact hlog

/-- What the end of a text adds to the log. -/
theorem log_settle (h : s.Holds config (acts t))
    (hsettle : s.settle t (openLiteral? t) = .ok p) :
    (p.outcome t).log = s.log.toList ++ endEvents t config ∧ p.scan.pairs = Check.pairs t := by
  obtain ⟨q, hq, hover, -⟩ := h.settle
  obtain rfl : q = p := Except.ok.inj (hq.symm.trans hsettle)
  have hsize : s.session.ledger.size = (findings t).length := h.size_eq
  have hconcerns : s.session.concerns = findings t := h.concerns
  have hpairs : s.pairs = Check.pairs t := h.pairs
  rw [Progress.log_outcome hover, endEvents]
  cases hliteral : openLiteral? t with
  | some quote =>
      rw [hliteral, Scan.settle, raise, Session.raise_eq h.active, hsize, h.filename] at hsettle
      cases hsettle
      exact ⟨by simp [Progress.scan, Scan.note], hpairs⟩
  | none =>
      rw [hliteral, Scan.settle, conclude, Session.expressConcerns_eq h.active,
        Session.concludeOutcome, hconcerns, hsize, h.filename] at hsettle
      by_cases hnone : findings t = []
      · rw [if_pos hnone] at hsettle
        cases hsettle
        exact ⟨by simp [Progress.scan, Scan.note, hnone, hpairs], hpairs⟩
      · rw [if_neg hnone] at hsettle
        cases hsettle
        exact ⟨by simp [Progress.scan, Scan.note, hnone], hpairs⟩

end Scan.Holds

/-- A scan in a new session logs the trace of its text, and below the limit it counts every pair. -/
theorem scan_trace (hfits : t.size + 2 ≤ maxOffset) {session : Session}
    (hstart : (Scan.start session).Holds config []) (hscan : scan t session = .ok p) :
    (p.outcome t).log = trace t config ∧
      ((findings t).length < config.limit.toNat → p.scan.pairs = pairs t) := by
  have hplay := scan_eq_play hfits session
  obtain ⟨q, hq, hreaches⟩ := hstart.play (acts t)
  rw [List.nil_append] at hreaches
  have hlog := hstart.log_play hq
  have hfirst : (Scan.start session).log.toList = [.started config.filename] := by
    rw [← hstart.filename]
    rfl
  rw [hscan, hq] at hplay
  have hbare : (p.bare.outcome t).log = trace t config ∧
      ((findings t).length < config.limit.toNat → p.bare.scan.pairs = pairs t) := by
    cases q with
    | going s =>
        have hbelow : ¬config.limit.toNat ≤ (findings t).length := Nat.not_le.mpr hreaches.below
        obtain ⟨hend, hpairs⟩ := hreaches.log_settle hplay.symm
        refine ⟨?_, fun _ => hpairs⟩
        rw [Progress.scan, hfirst, reports, List.filterMap_nil] at hlog
        rw [hend, trace, if_neg hbelow, hlog, List.append_assoc, List.singleton_append]
        rfl
    | failed s failure =>
        obtain ⟨hover, hfull, -⟩ := hreaches
        have hend : p.bare = .failed s failure := Except.ok.inj hplay
        have hlimit : config.limit.toNat ≤ (findings t).length := hfull
        refine ⟨?_, fun hbelow => absurd hlimit (Nat.not_le.mpr hbelow)⟩
        have hover : (Progress.failed s failure).session.IsOver := hover
        rw [hend, Progress.log_outcome hover, trace, if_pos hlimit, hlog, hfirst]
        rfl
  rw [Progress.outcome_bare] at hbare
  cases p <;> exact hbare

end ParseReport.Check
