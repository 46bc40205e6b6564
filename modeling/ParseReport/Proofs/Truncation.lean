import ParseReport.Proofs.ScanActs
import ParseReport.Proofs.SessionStep

/-!
# A limit cuts a check short

A check carries out the acts of its text in order until their reports reach the limit. How it
ends depends on the acts alone: on how many reports there are and, where these stay below the
limit, on whether there are any and whether a literal is open.
-/

namespace ParseReport

/-- A session that has come to its end with nothing held. -/
def Session.IsOver (s : Session) : Prop := s.phase ≠ .active ∧ s.concerns = []

theorem Session.isOver_leave (s : Session) {phase : Phase} (hphase : phase ≠ .active) :
    (s.leave phase).IsOver :=
  ⟨hphase, rfl⟩

namespace Check
variable {config : Config} {done : List Act} {s : Scan}

theorem Act.isPair_of_report? {act : Act} {d : Diagnostic} (h : act.report? = some d) :
    act.isPair = false := by
  cases act with
  | opened delimiter offset => rfl
  | closed opener closer offset => cases h
  | worry concern => rfl
  | regret concern => rfl

/-- The scan has carried out `done` and goes on: its session holds the reports, and they stay
below the limit. -/
structure Scan.Holds (config : Config) (done : List Act) (s : Scan) : Prop where
  active : s.session.phase = .active
  concerns : s.session.concerns = reports done
  below : (reports done).length < config.limit.toNat
  limit : s.session.ledger.limit = config.limit
  filename : s.session.ledger.filename = config.filename
  pairs : s.pairs = done.countP Act.isPair

def Progress.session : Progress → Session
  | going s => s.session
  | failed s _ => s.session

/-- Where a scan stands that had `done` to carry out. It fails with the report that reaches the
limit, and later acts do not change the failure. -/
def Progress.Reaches (config : Config) (done : List Act) : Progress → Prop
  | going s => s.Holds config done
  | failed s failure =>
    s.session.IsOver ∧ config.limit.toNat ≤ (reports done).length ∧
      failure = ⟨config.filename, (reports done).take config.limit.toNat,
        .limitExceeded config.limit.toNat⟩

theorem Progress.Reaches.append {failure : Failure}
    (h : (Progress.failed s failure).Reaches config done) (later : List Act) :
    (Progress.failed s failure).Reaches config (done ++ later) := by
  obtain ⟨hover, hfull, rfl⟩ := h
  refine ⟨hover, ?_, ?_⟩
  · rw [reports_append, List.length_append]
    omega
  · rw [reports_append, List.take_append_of_le_length hfull]

namespace Scan.Holds

theorem size_eq (h : s.Holds config done) : s.session.ledger.size = (reports done).length := by
  rw [Ledger.size_eq_length]
  exact congrArg List.length h.concerns

theorem perform_of_report? (h : s.Holds config done) {act : Act} {d : Diagnostic}
    (hreport : act.report? = some d) :
    s.perform act = s.follow (.ok (s.session.reportOutcome d)) := by
  cases act with
  | opened delimiter offset => cases hreport
  | closed opener closer offset => cases hreport
  | worry concern =>
      cases hreport
      rw [Scan.perform, Scan.worry, Session.worry, Session.report_eq h.active (by decide)]
  | regret concern =>
      cases hreport
      rw [Scan.perform, Scan.regret, Session.regret, Session.report_eq h.active (by decide)]

/-- A report is held or, as the one that reaches the limit, fails the scan. -/
theorem follow_report (h : s.Holds config done) {act : Act} {d : Diagnostic}
    (hreport : act.report? = some d) :
    ∃ p, s.follow (.ok (s.session.reportOutcome d)) = .ok p ∧
      p.Reaches config (done ++ [act]) := by
  have hreports : reports (done ++ [act]) = reports done ++ [d] := by
    rw [reports_concat, hreport]
    rfl
  rw [Session.reportOutcome, h.limit, h.size_eq]
  by_cases hfull : config.limit.toNat ≤ (reports done).length + 1
  · have hall : (reports (done ++ [act])).take config.limit.toNat =
        s.session.concerns ++ [d] := by
      rw [hreports, h.concerns]
      apply List.take_of_length_le
      have := h.below
      simp only [List.length_append, List.length_singleton]
      omega
    rw [if_pos hfull]
    refine ⟨_, rfl, s.session.isOver_leave (by decide), ?_, ?_⟩
    · simpa [hreports] using hfull
    · rw [hall, h.filename]
  · rw [if_neg hfull]
    refine ⟨_, rfl, h.active, ?_, ?_, h.limit, h.filename, ?_⟩
    · rw [hreports, ← h.concerns]
      exact s.session.ledger.toList_add d
    · rw [hreports, List.length_append, List.length_singleton]
      omega
    · rw [List.countP_append, List.countP_singleton, Act.isPair_of_report? hreport]
      exact h.pairs

/-- Nothing of the session changes with an act that reports nothing. -/
theorem silent (h : s.Holds config done) {act : Act} (hreport : act.report? = none) {s' : Scan}
    (hsession : s'.session = s.session) (hpairs : s'.pairs = s.pairs + [act].countP Act.isPair) :
    s'.Holds config (done ++ [act]) := by
  have hreports : reports (done ++ [act]) = reports done := by
    rw [reports_concat, hreport]
    exact List.append_nil _
  constructor
  · rw [hsession]
    exact h.active
  · rw [hsession, hreports]
    exact h.concerns
  · rw [hreports]
    exact h.below
  · rw [hsession]
    exact h.limit
  · rw [hsession]
    exact h.filename
  · rw [hpairs, h.pairs, List.countP_append]

/-- Each act takes the scan one step further. -/
theorem perform (h : s.Holds config done) (act : Act) :
    ∃ p, s.perform act = .ok p ∧ p.Reaches config (done ++ [act]) := by
  cases act with
  | opened delimiter offset => exact ⟨_, rfl, h.silent rfl rfl rfl⟩
  | closed opener closer offset => exact ⟨_, rfl, h.silent rfl rfl rfl⟩
  | worry concern =>
      rw [h.perform_of_report? rfl]
      exact h.follow_report rfl
  | regret concern =>
      rw [h.perform_of_report? rfl]
      exact h.follow_report rfl

/-- Acts in a row take it as far as all of them do. -/
theorem play (h : s.Holds config done) (acts : List Act) :
    ∃ p, s.play acts = .ok p ∧ p.Reaches config (done ++ acts) := by
  induction acts generalizing s done with
  | nil =>
      refine ⟨.going s, rfl, ?_⟩
      rw [List.append_nil]
      exact h
  | cons act acts ih =>
      obtain ⟨p, hp, hreaches⟩ := h.perform act
      rw [Scan.play, hp, List.append_cons]
      cases p with
      | going s' => exact ih hreaches
      | failed s' failure => exact ⟨_, rfl, hreaches.append acts⟩

/-- After the last act the session ends, and the check gives its verdict. -/
theorem settle {t : Text} (h : s.Holds config (acts t)) :
    ∃ p, s.settle t (openLiteral? t) = .ok p ∧ p.session.IsOver ∧
      (p.outcome t).result = verdict t config := by
  have hbelow : ¬config.limit.toNat ≤ (findings t).length := Nat.not_le.mpr h.below
  have hconcerns : s.session.concerns = findings t := h.concerns
  rw [verdict, if_neg hbelow]
  cases openLiteral? t with
  | some quote =>
      rw [Scan.settle, raise, Session.raise_eq h.active]
      refine ⟨_, rfl, s.session.isOver_leave (by decide), ?_⟩
      rw [← h.filename]
      rfl
  | none =>
      rw [Scan.settle, conclude, Session.expressConcerns_eq h.active, Session.concludeOutcome]
      by_cases hnone : findings t = []
      · rw [if_pos (hconcerns.trans hnone)]
        have hpairs : s.pairs = Check.pairs t := h.pairs
        refine ⟨_, rfl, s.session.isOver_leave (by decide), ?_⟩
        simp only [Progress.outcome, note, if_pos hnone, hpairs]
      · rw [if_neg (by rwa [hconcerns])]
        refine ⟨_, rfl, s.session.isOver_leave (by decide), ?_⟩
        simp only [Progress.outcome, if_neg hnone, hconcerns, h.filename]

end Scan.Holds

/-- A failure has findings, up to the limit, or the literal that was cut off. -/
theorem diagnostics_of_verdict {t : Text} {failure : Failure} (hlimit : config.limit ≠ 0)
    (hverdict : verdict t config = .error (.reported failure)) :
    (failure.diagnostics = (findings t).take config.limit.toNat ∧ findings t ≠ []) ∨
      ∃ quote, failure.diagnostics = [⟨cutOff t quote, .panic⟩] := by
  rw [verdict] at hverdict
  by_cases hfull : config.limit.toNat ≤ (findings t).length
  · rw [if_pos hfull] at hverdict
    cases hverdict
    have hpositive : 0 < config.limit.toNat := (Session.fresh config hlimit).limit_pos
    exact .inl ⟨rfl, List.length_pos_iff.mp (Nat.lt_of_lt_of_le hpositive hfull)⟩
  · rw [if_neg hfull] at hverdict
    cases hliteral : openLiteral? t with
    | some quote =>
        rw [hliteral] at hverdict
        cases hverdict
        exact .inr ⟨quote, rfl⟩
    | none =>
        rw [hliteral] at hverdict
        by_cases hnone : findings t = []
        · simp only [if_pos hnone] at hverdict
          cases hverdict
        · simp only [if_neg hnone] at hverdict
          cases hverdict
          have hall : (findings t).length ≤ config.limit.toNat := by omega
          exact .inl ⟨(List.take_of_length_le hall).symm, hnone⟩

theorem start_holds (hlimit : config.limit ≠ 0) :
    (Scan.start (.fresh config hlimit)).Holds config [] :=
  ⟨rfl, rfl, (Session.fresh config hlimit).limit_pos, rfl, rfl, rfl⟩

/-- A scan in a new session comes to its end, and gives the verdict. -/
theorem scan_verdict {t : Text} (hfits : t.size + 2 ≤ maxOffset) {session : Session}
    (hstart : (Scan.start session).Holds config []) :
    ∃ p, scan t session = .ok p ∧ p.session.IsOver ∧ (p.outcome t).result = verdict t config := by
  have hscan := scan_eq_play hfits session
  obtain ⟨p, hp, hreaches⟩ := hstart.play (acts t)
  rw [List.nil_append] at hreaches
  rw [hp] at hscan
  have hend : ∃ q, (scan t session).map Progress.bare = .ok q ∧ q.session.IsOver ∧
      (q.outcome t).result = verdict t config := by
    rw [hscan]
    cases p with
    | going s => exact hreaches.settle
    | failed s failure =>
        obtain ⟨hover, hfull, rfl⟩ := hreaches
        refine ⟨_, rfl, hover, ?_⟩
        rw [verdict, findings, if_pos hfull]
        rfl
  obtain ⟨q, hq, hover, hresult⟩ := hend
  cases hread : scan t session with
  | error breach =>
      rw [hread] at hq
      cases hq
  | ok p =>
      rw [hread] at hq
      cases hq
      refine ⟨p, rfl, ?_, ?_⟩
      · cases p <;> exact hover
      · rwa [p.outcome_bare] at hresult

/-- A check of a text that fits is a scan in a new session. -/
theorem check_eq_scan {t : Text} (hfits : t.size + 2 ≤ maxOffset) {config : Config}
    (hlimit : config.limit ≠ 0) :
    check t config = (scan t (.fresh config hlimit)).map (·.outcome t) := by
  have hrange : Span.ofRange 0 t.size = .ok ⟨0, t.size.toUInt32⟩ := by
    have hstop : ¬maxOffset < t.size := by omega
    simp [Span.ofRange, hstop]
  simp only [check, hrange, Session.ofConfig_eq hlimit, Except.mapError, bind, Except.bind]
  cases scan t (.fresh config hlimit) <;> rfl

theorem check_of_scan {t : Text} (hfits : t.size + 2 ≤ maxOffset) {config : Config}
    (hlimit : config.limit ≠ 0) {p : Progress} (hscan : scan t (.fresh config hlimit) = .ok p) :
    check t config = .ok (p.outcome t) := by
  rw [check_eq_scan hfits hlimit, hscan]
  rfl

/-- A check of a text that fits comes to its end with its session over, and gives the verdict. -/
theorem check_eq_outcome {t : Text} (hfits : t.size + 2 ≤ maxOffset) (config : Config)
    (hlimit : config.limit ≠ 0) :
    ∃ p : Progress, check t config = .ok (p.outcome t) ∧ p.session.IsOver ∧
      (p.outcome t).result = verdict t config := by
  obtain ⟨p, hp, hover, hresult⟩ := scan_verdict hfits (start_holds hlimit)
  exact ⟨p, check_of_scan hfits hlimit hp, hover, hresult⟩

/-- Whatever the limit, a check agrees with the findings of an unlimited one. It fails with the
first of them when they reach the limit. When they do not, a literal that is cut off fails it
alone; otherwise it fails with all findings, and succeeds if there are none. -/
theorem check_truncates_findings (t filename : Text) (limit : UInt64)
    (hfits : t.size + 2 ≤ maxOffset) (hlimit : limit ≠ 0) :
    ∃ outcome, check t ⟨filename, limit⟩ = .ok outcome ∧
      (limit.toNat ≤ (findings t).length →
        outcome.result = .error (.reported
          ⟨filename, (findings t).take limit.toNat, .limitExceeded limit.toNat⟩)) ∧
      ((findings t).length < limit.toNat →
        (∀ quote, openLiteral? t = some quote →
          outcome.result = .error (.reported ⟨filename, [⟨cutOff t quote, .panic⟩], .panic⟩)) ∧
        (openLiteral? t = none → findings t = [] →
          outcome.result = .ok ⟨pairs t, t.lineCount⟩) ∧
        (openLiteral? t = none → findings t ≠ [] →
          outcome.result = .error (.reported ⟨filename, findings t, .concerns⟩))) := by
  obtain ⟨p, hp, -, hresult⟩ := check_eq_outcome hfits ⟨filename, limit⟩ hlimit
  refine ⟨p.outcome t, hp, ?_, ?_⟩
  · intro hfull
    rw [hresult, verdict, if_pos hfull]
  · intro hbelow
    rw [hresult, verdict, if_neg (Nat.not_le.mpr hbelow)]
    refine ⟨?_, ?_, ?_⟩
    · intro quote hquote
      rw [hquote]
    · intro hclosed hnone
      rw [hclosed]
      exact if_pos hnone
    · intro hclosed hsome
      rw [hclosed]
      exact if_neg hsome

/-- Of three findings, a limit of two keeps the first two. -/
theorem check_truncates_two_of_three :
    Text.size "a <> b)\n(".toList + 2 ≤ maxOffset ∧ (2 : UInt64) ≠ 0 ∧
      ∃ outcome, check "a <> b)\n(".toList ⟨['f'], 2⟩ = .ok outcome ∧
        outcome.result = .error (.reported ⟨['f'],
          [⟨.about (.obsolete "<>".toList "!=".toList)
              (.attached "a <> b)\n(".toList ⟨2, 4⟩), .worry⟩,
            ⟨.about (.extraCloser ')') (.attached "a <> b)\n(".toList ⟨6, 7⟩), .regret⟩],
          .limitExceeded 2⟩) := by
  have hfits : Text.size "a <> b)\n(".toList + 2 ≤ maxOffset := by decide
  obtain ⟨outcome, hcheck, hfull, -⟩ :=
    check_truncates_findings "a <> b)\n(".toList ['f'] 2 hfits (by decide)
  refine ⟨hfits, by decide, outcome, hcheck, ?_⟩
  rw [hfull (by decide)]
  rfl

end Check

end ParseReport
