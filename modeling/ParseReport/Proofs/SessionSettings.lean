import Mathlib.Data.List.Basic
import ParseReport.Proofs.SessionHistory

/-!
# When a session is configured

The filename and the limit may be set between reports. Where every report and every setting has
succeeded, the session is the same as one that had the last filename and the last limit from the
start and was given the reports alone: the last limit leaves room for all of them, so it leaves
room for each of them.
-/

namespace ParseReport.Session

/-- Whether the call hands in a diagnostic to be held. -/
def Call.isReport (call : Call) : Bool := call.report?.isSome

/-- Whether the call sets the filename or the limit. -/
def Call.isSetting : Call → Bool
  | .setFilename _ | .setLimit _ => true
  | _ => false

variable {s s' : Session} {call : Call} {calls : List Call}

theorem ext_of_concerns (hphase : s.phase = s'.phase) (hconcerns : s.concerns = s'.concerns)
    (hlimit : s.ledger.limit = s'.ledger.limit)
    (hfilename : s.ledger.filename = s'.ledger.filename) : s = s' := by
  obtain ⟨⟨buffered, limit, filename, hpos⟩, phase⟩ := s
  obtain ⟨⟨buffered', limit', filename', hpos'⟩, phase'⟩ := s'
  obtain rfl : buffered = buffered' := Array.toList_inj.mp hconcerns
  cases hphase
  cases hlimit
  cases hfilename
  rfl

theorem eq_fresh_of_ofConfig {config : Config} (hstart : ofConfig config = .ok s) :
    ∃ hlimit : config.limit ≠ 0, s = fresh config hlimit := by
  by_cases hzero : config.limit = 0
  · rw [ofConfig, Ledger.create, dif_pos hzero] at hstart
    cases hstart
  · exact ⟨hzero, Except.ok.inj (hstart.symm.trans (ofConfig_eq hzero))⟩

/-- A report that does not fail an active session is held. -/
theorem session_attempt_of_report (hphase : s.phase = .active) {d : Diagnostic}
    (hreport : call.report? = some d) (haccepted : (s.attempt call).reply = .ok .accepted) :
    (s.attempt call).session = s.keep d := by
  rw [attempt_of_report? hphase hreport, reportOutcome] at haccepted ⊢
  by_cases hfull : s.ledger.limit.toNat ≤ s.ledger.size + 1
  · rw [if_pos hfull] at haccepted
    cases haccepted
  · rw [if_neg hfull]
    rfl

/-- A setting changes neither the phase nor what is held. -/
theorem session_attempt_of_setting (hsetting : call.isSetting = true) :
    (s.attempt call).session.phase = s.phase ∧ (s.attempt call).session.concerns = s.concerns := by
  by_cases hphase : s.phase = .active
  · cases call with
    | setFilename filename =>
        rw [attempt, setFilename_eq hphase]
        exact ⟨rfl, rfl⟩
    | setLimit limit =>
        rw [attempt, setLimit_eq hphase]
        rcases s.ledger.setLimit_cases limit with
          ⟨misuse, hset⟩ | ⟨ledger, hset, -, hlist, -, -⟩
        · rw [hset]
          exact ⟨rfl, rfl⟩
        · rw [hset]
          exact ⟨rfl, hlist⟩
    | _ => cases hsetting
  · rw [session_attempt_of_ne hphase]
    exact ⟨rfl, rfl⟩

/-- Reports and settings that all succeed leave an active session active, with the reports held. -/
theorem concerns_after (hphase : s.phase = .active)
    (hkind : ∀ call ∈ calls, call.isReport = true ∨ call.isSetting = true)
    (haccepted : ∀ answer ∈ s.run calls, answer.reply = .ok .accepted) :
    (s.after calls).phase = .active ∧
      (s.after calls).concerns = s.concerns ++ calls.filterMap Call.report? := by
  induction calls generalizing s with
  | nil => exact ⟨hphase, (List.append_nil _).symm⟩
  | cons call calls ih =>
      obtain ⟨hfirst, hkind⟩ := List.forall_mem_cons.mp hkind
      obtain ⟨hreply, haccepted⟩ := List.forall_mem_cons.mp haccepted
      change ((s.attempt call).session.after calls).phase = _ ∧
        ((s.attempt call).session.after calls).concerns = _
      cases hreport : call.report? with
      | some d =>
          have hkept := session_attempt_of_report hphase hreport hreply
          rw [hkept] at haccepted ⊢
          obtain ⟨hactive, hconcerns⟩ := ih (s := s.keep d) hphase hkind haccepted
          refine ⟨hactive, ?_⟩
          rw [hconcerns, List.filterMap_cons_some hreport, List.append_cons]
          exact congrArg (· ++ _) (s.ledger.toList_add d)
      | none =>
          have hsetting : call.isSetting = true :=
            hfirst.resolve_left (by simp [Call.isReport, hreport])
          obtain ⟨hsame, hheld⟩ := session_attempt_of_setting (s := s) hsetting
          rw [List.filterMap_cons_none hreport, ← hheld]
          exact ih (hsame.trans hphase) hkind haccepted

/-- An active session with room for some reports and one more accepts them all, and they change
neither its limit nor its filename. -/
theorem run_reports (hphase : s.phase = .active)
    (hreports : ∀ call ∈ calls, call.isReport = true)
    (hroom : s.ledger.size + (calls.filterMap Call.report?).length < s.ledger.limit.toNat) :
    (∀ answer ∈ s.run calls, answer.reply = .ok .accepted) ∧
      (s.after calls).ledger.limit = s.ledger.limit ∧
      (s.after calls).ledger.filename = s.ledger.filename := by
  induction calls generalizing s with
  | nil => exact ⟨List.forall_mem_nil _, rfl, rfl⟩
  | cons call calls ih =>
      obtain ⟨hfirst, hreports⟩ := List.forall_mem_cons.mp hreports
      obtain ⟨d, hreport⟩ := Option.isSome_iff_exists.mp hfirst
      rw [List.filterMap_cons_some hreport, List.length_cons] at hroom
      have hanswer : s.attempt call =
          ⟨.ok .accepted, s.keep d, some (.buffered d.severity d.kind (s.ledger.size + 1))⟩ := by
        rw [attempt_of_report? hphase hreport, reportOutcome, if_neg (by omega)]
        rfl
      have hsize : (s.keep d).ledger.size = s.ledger.size + 1 := s.ledger.size_add d
      have hlimit : (s.keep d).ledger.limit = s.ledger.limit := rfl
      have hrest := ih (s := s.keep d) hphase hreports (by rw [hsize, hlimit]; omega)
      rw [run, after, List.foldl_cons, hanswer]
      exact ⟨List.forall_mem_cons.mpr ⟨rfl, hrest.1⟩, hrest.2⟩

theorem filterMap_report?_filter (calls : List Call) :
    (calls.filter Call.isReport).filterMap Call.report? = calls.filterMap Call.report? := by
  rw [List.filterMap_filter]
  apply List.filterMap_congr
  intro call _
  rw [Call.isReport]
  cases call.report? <;> rfl

/-- Reports and settings that all succeed bring a new session to the same state as the reports
alone bring one that was given the last filename and the last limit at the start. The reports
succeed there too, and any further calls have the same answers. -/
theorem settings_may_come_first {config : Config} (hstart : ofConfig config = .ok s)
    (calls : List Call) (hkind : ∀ call ∈ calls, call.isReport = true ∨ call.isSetting = true)
    (haccepted : ∀ answer ∈ s.run calls, answer.reply = .ok .accepted) :
    let last := s.after calls
    let given := calls.filter Call.isReport
    last.phase = .active ∧
      last.ledger.filename = lastFilename config (s.transcript calls) ∧
      last.ledger.limit = lastLimit config (s.transcript calls) ∧
      ∃ s', ofConfig ⟨last.ledger.filename, last.ledger.limit⟩ = .ok s' ∧
        (∀ answer ∈ s'.run given, answer.reply = .ok .accepted) ∧
        s'.after given = last ∧
        ∀ later, (s'.run (given ++ later)).drop given.length =
          (s.run (calls ++ later)).drop calls.length := by
  intro last given
  obtain ⟨hlimit, rfl⟩ := eq_fresh_of_ofConfig hstart
  obtain ⟨s, hs, hphase, hagrees⟩ := agrees_ofConfig hlimit
  obtain rfl : s = fresh config hlimit := Except.ok.inj (hs.symm.trans hstart)
  have hend : Agrees config ((fresh config hlimit).transcript calls) last := hagrees.run calls
  obtain ⟨hactive, hconcerns⟩ := concerns_after hphase hkind haccepted
  rw [show (fresh config hlimit).concerns = [] from rfl, List.nil_append] at hconcerns
  -- The last limit is above the number of all the reports, whatever limits were in force before.
  have hbelow : (calls.filterMap Call.report?).length < last.ledger.limit.toNat := by
    rw [← hconcerns]
    exact hend.size_lt hactive
  let first := fresh ⟨last.ledger.filename, last.ledger.limit⟩ last.ledger.limit_ne_zero
  have hreports : ∀ call ∈ given, call.isReport = true :=
    fun call hmem => (List.mem_filter.mp hmem).2
  obtain ⟨haccepted', hlimit', hfilename'⟩ := run_reports (s := first) rfl hreports (by
    rw [filterMap_report?_filter]
    exact (Nat.zero_add _).symm ▸ hbelow)
  obtain ⟨hactive', hconcerns'⟩ :=
    concerns_after (s := first) rfl (fun call hmem => .inl (hreports call hmem)) haccepted'
  have hsame : first.after given = last := by
    apply ext_of_concerns (hactive'.trans hactive.symm) _ hlimit' hfilename'
    rw [hconcerns', filterMap_report?_filter]
    exact hconcerns.symm
  refine ⟨hactive, hend.filename, hend.limit, first, ofConfig_eq _, haccepted', hsame, ?_⟩
  intro later
  rw [run_append, run_append, List.drop_left' (length_run _ _), List.drop_left' (length_run _ _),
    hsame]

/-- The limit is raised before the first report and lowered to the last that leaves room after the
second. -/
theorem settings_between_two_reports :
    let about (c : Char) : Concern := ⟨.adHoc [c], none, none⟩
    let calls : List Call :=
      [.setLimit 5, .worry (about 'a'), .setFilename ['g'], .regret (about 'b'), .setLimit 3]
    ∃ s s', ofConfig ⟨['f'], 1⟩ = .ok s ∧ ofConfig ⟨['g'], 3⟩ = .ok s' ∧
      (∀ call ∈ calls, call.isReport = true ∨ call.isSetting = true) ∧
      (∀ answer ∈ s.run calls, answer.reply = .ok .accepted) ∧
      s'.after [.worry (about 'a'), .regret (about 'b')] = s.after calls ∧
      (s.after calls).concerns = [⟨about 'a', .worry⟩, ⟨about 'b', .regret⟩] := by
  intro about calls
  have hkind : ∀ call ∈ calls, call.isReport = true ∨ call.isSetting = true := by decide
  have haccepted : ∀ answer ∈ (fresh ⟨['f'], 1⟩ (by decide)).run calls,
      answer.reply = .ok .accepted := by decide
  obtain ⟨-, -, -, s', hs', -, hsame, -⟩ :=
    settings_may_come_first (ofConfig_eq _) calls hkind haccepted
  exact ⟨_, s', rfl, hs', hkind, haccepted, hsame, rfl⟩

end ParseReport.Session
