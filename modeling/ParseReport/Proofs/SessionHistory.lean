import ParseReport.Proofs.SessionStep

/-!
# The history of a session

The calls on a session and the answers to them are all that a parser sees. What the session
holds, its limit, its filename and the one failure it may bring are worked out here from that
transcript alone, refused calls included, and then compared with the session.
-/

namespace ParseReport.Session

/-- A call, the phase in which it was made, and its reply. -/
structure Exchange where
  phase : Phase
  call : Call
  reply : Except Misuse Reply

/-- The exchange that a call on a session makes. -/
def exchange (s : Session) (call : Call) : Exchange := ⟨s.phase, call, (s.attempt call).reply⟩

/-- The exchanges of a run. -/
def transcript : Session → List Call → List Exchange
  | _, [] => []
  | s, call :: calls => s.exchange call :: (s.attempt call).session.transcript calls

theorem replies_transcript (s : Session) (calls : List Call) :
    (s.transcript calls).map (·.reply) = (s.run calls).map (·.reply) := by
  induction calls generalizing s with
  | nil => rfl
  | cons call calls ih => simp [transcript, run, exchange, ih]

/-- The diagnostic that a call hands in to be held. -/
def Call.report? : Call → Option Diagnostic
  | .worry concern => some ⟨concern, .worry⟩
  | .regret concern => some ⟨concern, .regret⟩
  | _ => none

namespace Exchange

/-- The report made by the exchange, if the session was active. -/
def report? (x : Exchange) : Option Diagnostic :=
  if x.phase = .active then x.call.report? else none

/-- The filename set by the exchange. -/
def filename? (x : Exchange) : Option Text :=
  match x.call, x.reply with
  | .setFilename filename, .ok _ => some filename
  | _, _ => none

/-- The limit set by the exchange. -/
def limit? (x : Exchange) : Option UInt64 :=
  match x.call, x.reply with
  | .setLimit limit, .ok _ => some limit
  | _, _ => none

/-- The call of the exchange with the failure that it brought. -/
def failure? (x : Exchange) : Option (Call × Failure) :=
  match x.reply with
  | .ok (.failed failure) => some (x.call, failure)
  | _ => none

/-- A refused call sets nothing and brings no failure. -/
theorem quiet_of_error {x : Exchange} {misuse : Misuse} (h : x.reply = .error misuse) :
    x.filename? = none ∧ x.limit? = none ∧ x.failure? = none := by
  obtain ⟨phase, call, reply⟩ := x
  cases h
  cases call <;> exact ⟨rfl, rfl, rfl⟩

end Exchange

/-- The reports made while the session was active, in call order. -/
def reports (done : List Exchange) : List Diagnostic := done.filterMap Exchange.report?

/-- The filename set last, or the one given at the start. -/
def lastFilename (config : Config) (done : List Exchange) : Text :=
  (done.filterMap Exchange.filename?).getLast?.getD config.filename

/-- The limit set last, or the one given at the start. -/
def lastLimit (config : Config) (done : List Exchange) : UInt64 :=
  (done.filterMap Exchange.limit?).getLast?.getD config.limit

/-- The calls that brought a failure, each with its failure. -/
def failures (done : List Exchange) : List (Call × Failure) := done.filterMap Exchange.failure?

/-- What a failure holds and why it came, as the transcript explains it. A report that fails the
session is itself the last of the reports. -/
def Explains (config : Config) (done : List Exchange) (call : Call) (failure : Failure) : Prop :=
  failure.filename = lastFilename config done ∧
    match call with
    | .worry _ | .regret _ =>
      failure.diagnostics = reports done ∧ (reports done).getLast? = call.report? ∧
        failure.cause = .limitExceeded (lastLimit config done).toNat ∧
        (reports done).length = (lastLimit config done).toNat
    | .expressConcerns =>
      failure.diagnostics = reports done ∧ 1 ≤ (reports done).length ∧
        (reports done).length < (lastLimit config done).toNat ∧ failure.cause = .concerns
    | .raise concern => failure.diagnostics = [⟨concern, .panic⟩] ∧ failure.cause = .panic
    | .setFilename _ | .setLimit _ | .concerns => False

/-- The reply that an active session owes to a call after a transcript. -/
def dueReply (config : Config) (done : List Exchange) : Call → Except Misuse Reply
  | .worry concern => .ok (reportReply ⟨concern, .worry⟩)
  | .regret concern => .ok (reportReply ⟨concern, .regret⟩)
  | .raise concern => .ok (.failed ⟨lastFilename config done, [⟨concern, .panic⟩], .panic⟩)
  | .expressConcerns =>
    if reports done = [] then .ok .accepted
    else .ok (.failed ⟨lastFilename config done, reports done, .concerns⟩)
  | .setFilename _ => .ok .accepted
  | .setLimit limit =>
    if limit = 0 then .error .zeroLimit
    else if limit.toNat ≤ (reports done).length then
      .error (.limitNotAbove limit.toNat (reports done).length)
    else .ok .accepted
  | .concerns => .ok (.listed (reports done))
where
  /-- The report that makes the number of reports equal to the limit fails. -/
  reportReply (d : Diagnostic) : Reply :=
    if (reports done).length + 1 = (lastLimit config done).toNat then
      .failed ⟨lastFilename config done, reports done ++ [d],
        .limitExceeded (lastLimit config done).toNat⟩
    else .accepted

/-- A session and a transcript of the calls made on it tell the same story. -/
structure Agrees (config : Config) (done : List Exchange) (s : Session) : Prop where
  filename : s.ledger.filename = lastFilename config done
  limit : s.ledger.limit = lastLimit config done
  active : s.phase = .active →
    s.concerns = reports done ∧ (reports done).length < (lastLimit config done).toNat ∧
      failures done = []
  inactive : s.phase ≠ .active →
    s.concerns = [] ∧ (failures done).length ≤ 1 ∧
      ∀ call failure, (call, failure) ∈ failures done → Explains config done call failure

section Append
variable (config : Config) (done : List Exchange) (x : Exchange)

theorem reports_append : reports (done ++ [x]) = reports done ++ x.report?.toList := by
  cases h : x.report? <;> simp [reports, h]

theorem failures_append : failures (done ++ [x]) = failures done ++ x.failure?.toList := by
  cases h : x.failure? <;> simp [failures, h]

theorem lastFilename_append :
    lastFilename config (done ++ [x]) = x.filename?.getD (lastFilename config done) := by
  cases h : x.filename? <;> simp [lastFilename, h]

theorem lastLimit_append :
    lastLimit config (done ++ [x]) = x.limit?.getD (lastLimit config done) := by
  cases h : x.limit? <;> simp [lastLimit, h]

end Append

variable {config : Config} {done : List Exchange} {s : Session}

theorem attempt_of_report? (hphase : s.phase = .active) {call : Call} {d : Diagnostic}
    (hcall : call.report? = some d) :
    s.attempt call = .ofOutcome s (.ok (s.reportOutcome d)) := by
  cases call with
  | worry concern =>
      cases hcall
      rw [attempt, worry, report_eq hphase (by decide)]
  | regret concern =>
      cases hcall
      rw [attempt, regret, report_eq hphase (by decide)]
  | _ => cases hcall

theorem dueReply_of_report? {call : Call} {d : Diagnostic} (hcall : call.report? = some d) :
    dueReply config done call = .ok (dueReply.reportReply config done d) := by
  cases call <;> cases hcall <;> rfl

namespace Agrees

theorem size_eq (h : Agrees config done s) (hphase : s.phase = .active) :
    s.ledger.size = (reports done).length :=
  congrArg List.length (h.active hphase).1

/-- In the active phase the number of diagnostics held stays below the limit. -/
theorem size_lt (h : Agrees config done s) (hphase : s.phase = .active) :
    s.ledger.size < s.ledger.limit.toNat := by
  rw [h.size_eq hphase, h.limit]
  exact (h.active hphase).2.1

theorem reply_reportOutcome (h : Agrees config done s) (hphase : s.phase = .active)
    (d : Diagnostic) : (s.reportOutcome d).reply = dueReply.reportReply config done d := by
  have hlt := h.size_lt hphase
  obtain ⟨hconcerns, -, -⟩ := h.active hphase
  rw [reportOutcome, dueReply.reportReply, ← h.filename, ← h.limit, ← h.size_eq hphase,
    ← hconcerns]
  by_cases hfull : s.ledger.limit.toNat ≤ s.ledger.size + 1
  · rw [if_pos hfull, if_pos (by omega)]
    rfl
  · rw [if_neg hfull, if_neg (by omega)]
    rfl

/-- An active session gives the reply that its transcript makes due. -/
theorem reply_attempt (h : Agrees config done s) (hphase : s.phase = .active) (call : Call) :
    (s.attempt call).reply = dueReply config done call := by
  obtain ⟨hconcerns, hbelow, -⟩ := h.active hphase
  cases hcall : call.report? with
  | some d =>
      rw [attempt_of_report? hphase hcall, dueReply_of_report? hcall]
      exact congrArg Except.ok (h.reply_reportOutcome hphase d)
  | none =>
      cases call with
      | worry concern => cases hcall
      | regret concern => cases hcall
      | raise concern => rw [attempt, raise_eq hphase, dueReply, ← h.filename]; rfl
      | expressConcerns =>
          rw [attempt, expressConcerns_eq hphase, concludeOutcome, dueReply, ← h.filename,
            hconcerns]
          by_cases hnone : reports done = []
          · rw [if_pos hnone, if_pos hnone]
            rfl
          · rw [if_neg hnone, if_neg hnone]
            rfl
      | setFilename filename => rw [attempt, setFilename_eq hphase]; rfl
      | setLimit limit =>
          rw [attempt, setLimit_eq hphase, Ledger.setLimit, dueReply, h.size_eq hphase]
          by_cases hzero : limit = 0
          · rw [dif_pos hzero, if_pos hzero]
            rfl
          · by_cases hle : limit.toNat ≤ (reports done).length
            · rw [dif_neg hzero, if_neg hzero, if_pos hle, if_pos hle]
              rfl
            · rw [dif_neg hzero, if_neg hzero, if_neg hle, if_neg hle]
              rfl
      | concerns => rw [attempt, dueReply, hconcerns]

/-- An exchange that reports and sets nothing and brings no failure adds nothing to the story. -/
theorem quiet (h : Agrees config done s) {x : Exchange} (hreport : x.report? = none)
    (hname : x.filename? = none) (hlimit : x.limit? = none) (hfailure : x.failure? = none) :
    Agrees config (done ++ [x]) s := by
  have hreports : reports (done ++ [x]) = reports done := by
    simp [reports_append, hreport]
  have hfailures : failures (done ++ [x]) = failures done := by
    simp [failures_append, hfailure]
  have hfilename : lastFilename config (done ++ [x]) = lastFilename config done := by
    simp [lastFilename_append, hname]
  have hlast : lastLimit config (done ++ [x]) = lastLimit config done := by
    simp [lastLimit_append, hlimit]
  constructor
  · rw [hfilename, h.filename]
  · rw [hlast, h.limit]
  · rw [hreports, hfailures, hlast]
    exact h.active
  · intro hphase
    obtain ⟨hnone, hone, hexplains⟩ := h.inactive hphase
    refine ⟨hnone, by rwa [hfailures], ?_⟩
    intro call failure hmem
    rw [hfailures] at hmem
    have hbefore := hexplains call failure hmem
    unfold Explains at hbefore ⊢
    rwa [hfilename, hreports, hlast]

/-- Every call on a session that is no longer active is such an exchange. -/
theorem refused (h : Agrees config done s) (hphase : s.phase ≠ .active) (call : Call) :
    Agrees config (done ++ [s.exchange call]) s := by
  have hreport : (s.exchange call).report? = none := by
    rw [Exchange.report?, exchange, if_neg hphase]
  cases hoperation : call.operation? with
  | some operation =>
      have hreply : (s.exchange call).reply =
          .error (.notActive operation s.ledger.filename s.phase) := by
        rw [exchange, attempt_of_ne hphase, hoperation]
      obtain ⟨hname, hlimit, hfailure⟩ := Exchange.quiet_of_error hreply
      exact h.quiet hreport hname hlimit hfailure
  | none =>
      cases call <;> cases hoperation
      exact h.quiet hreport rfl rfl rfl

/-- An exchange that ends the active phase may bring the first failure. -/
theorem leave (h : Agrees config done s) (hphase : s.phase = .active) {x : Exchange} {phase : Phase}
    (hleft : phase ≠ .active) (hname : x.filename? = none) (hlimit : x.limit? = none)
    (hexplains : ∀ call failure, x.failure? = some (call, failure) →
      Explains config (done ++ [x]) call failure) :
    Agrees config (done ++ [x]) (s.leave phase) := by
  obtain ⟨-, -, hnone⟩ := h.active hphase
  have hfailures : failures (done ++ [x]) = x.failure?.toList := by
    rw [failures_append, hnone, List.nil_append]
  constructor
  · rw [lastFilename_append, hname]
    exact h.filename
  · rw [lastLimit_append, hlimit]
    exact h.limit
  · intro hactive
    exact absurd hactive hleft
  · intro _
    refine ⟨rfl, ?_, ?_⟩
    · rw [hfailures]
      cases x.failure? <;> simp
    · intro call failure hmem
      rw [hfailures, Option.mem_toList] at hmem
      exact hexplains call failure hmem

/-- An exchange after which the session is still active has kept a report or set the filename or
the limit. -/
theorem stay (h : Agrees config done s) (hphase : s.phase = .active) {x : Exchange} {s' : Session}
    (hphase' : s'.phase = .active) (hconcerns : s'.concerns = s.concerns ++ x.report?.toList)
    (hname : s'.ledger.filename = x.filename?.getD s.ledger.filename)
    (hlimit : s'.ledger.limit = x.limit?.getD s.ledger.limit) (hfailure : x.failure? = none)
    (hroom : s'.ledger.size < s'.ledger.limit.toNat) :
    Agrees config (done ++ [x]) s' := by
  obtain ⟨hbefore, -, hnone⟩ := h.active hphase
  have hreports : s'.concerns = reports (done ++ [x]) := by
    rw [hconcerns, reports_append, hbefore]
  have hlast : s'.ledger.limit = lastLimit config (done ++ [x]) := by
    rw [hlimit, lastLimit_append, h.limit]
  constructor
  · rw [hname, lastFilename_append, h.filename]
  · exact hlast
  · intro _
    refine ⟨hreports, ?_, ?_⟩
    · rw [← hreports, ← hlast]
      exact hroom
    · rw [failures_append, hnone, hfailure]
      rfl
  · intro hne
    exact absurd hphase' hne

/-- The report that reaches the limit fails the session. -/
theorem report_last (h : Agrees config done s) (hphase : s.phase = .active) {call : Call}
    {d : Diagnostic} (hcall : call.report? = some d)
    (hfull : s.ledger.size + 1 = s.ledger.limit.toNat) :
    Agrees config (done ++ [s.exchange call]) (s.attempt call).session := by
  have hreply := h.reply_attempt hphase call
  have hreport : (s.exchange call).report? = some d := by
    rw [Exchange.report?, exchange, if_pos hphase, hcall]
  have hname : (s.exchange call).filename? = none := by cases call <;> cases hcall <;> rfl
  have hlimit : (s.exchange call).limit? = none := by cases call <;> cases hcall <;> rfl
  have hsize : (reports done).length = s.ledger.size := (h.size_eq hphase).symm
  have hsession : (s.attempt call).session = s.leave .escalated := by
    rw [attempt_of_report? hphase hcall, reportOutcome, if_pos (by omega)]
    rfl
  rw [hsession]
  apply h.leave hphase (by decide) hname hlimit
  intro call' failure hfailure
  rw [dueReply_of_report? hcall, dueReply.reportReply, hsize, ← h.limit, if_pos hfull] at hreply
  rw [Exchange.failure?, exchange, hreply] at hfailure
  cases hfailure
  have hreports : reports (done ++ [s.exchange call]) = reports done ++ [d] := by
    rw [reports_append, hreport]
    rfl
  have hlast : lastLimit config (done ++ [s.exchange call]) = s.ledger.limit := by
    rw [lastLimit_append, hlimit, h.limit]
    rfl
  refine ⟨by rw [lastFilename_append, hname]; rfl, ?_⟩
  have hall : reports done ++ [d] = reports (done ++ [s.exchange call]) ∧
      (reports (done ++ [s.exchange call])).getLast? = call.report? ∧
      Cause.limitExceeded s.ledger.limit.toNat =
        .limitExceeded (lastLimit config (done ++ [s.exchange call])).toNat ∧
      (reports (done ++ [s.exchange call])).length =
        (lastLimit config (done ++ [s.exchange call])).toNat := by
    rw [hreports, hlast, hcall]
    exact ⟨rfl, by simp, rfl, by simpa [hsize] using hfull⟩
  cases call <;> cases hcall <;> exact hall

theorem report_kept (h : Agrees config done s) (hphase : s.phase = .active) {call : Call}
    {d : Diagnostic} (hcall : call.report? = some d)
    (hroom : s.ledger.size + 1 ≠ s.ledger.limit.toNat) :
    Agrees config (done ++ [s.exchange call]) (s.attempt call).session := by
  have hlt := h.size_lt hphase
  have hreply := h.reply_attempt hphase call
  have hsession : (s.attempt call).session = s.keep d := by
    rw [attempt_of_report? hphase hcall, reportOutcome, if_neg (by omega)]
    rfl
  rw [hsession]
  rw [dueReply_of_report? hcall, dueReply.reportReply, ← h.size_eq hphase, ← h.limit,
    if_neg hroom] at hreply
  apply h.stay hphase
  · exact hphase
  · rw [Exchange.report?, exchange, if_pos hphase, hcall]
    exact s.ledger.toList_add d
  · cases call <;> cases hcall <;> rfl
  · cases call <;> cases hcall <;> rfl
  · rw [Exchange.failure?, exchange, hreply]
  · change (s.ledger.add d).size < s.ledger.limit.toNat
    rw [Ledger.size_add]
    omega

theorem setLimit (h : Agrees config done s) (hphase : s.phase = .active) (limit : UInt64) :
    Agrees config (done ++ [s.exchange (.setLimit limit)])
      (s.attempt (.setLimit limit)).session := by
  have hreport : (s.exchange (.setLimit limit)).report? = none := by
    rw [Exchange.report?, exchange, if_pos hphase]
    rfl
  rcases s.ledger.setLimit_cases limit with
    ⟨misuse, hset⟩ | ⟨ledger, hset, hroom, hlist, hfile, hlimit⟩
  · have hanswer : s.attempt (.setLimit limit) = ⟨.error misuse, s, none⟩ := by
      rw [attempt, setLimit_eq hphase, hset]
      rfl
    have hreply : (s.exchange (.setLimit limit)).reply = .error misuse := by
      rw [exchange, hanswer]
    obtain ⟨hname, hlast, hfailure⟩ := Exchange.quiet_of_error hreply
    rw [hanswer]
    exact h.quiet hreport hname hlast hfailure
  · have hanswer : s.attempt (.setLimit limit) =
        ⟨.ok .accepted, { s with ledger }, some (.limitSet limit.toNat)⟩ := by
      rw [attempt, setLimit_eq hphase, hset]
      rfl
    rw [hanswer]
    apply h.stay hphase
    · exact hphase
    · rw [hreport]
      exact hlist.trans (List.append_nil _).symm
    · exact hfile
    · rw [Exchange.limit?, exchange, hanswer]
      exact hlimit
    · rw [Exchange.failure?, exchange, hanswer]
    · change ledger.toList.length < ledger.limit.toNat
      rwa [hlist, hlimit]

theorem raise (h : Agrees config done s) (hphase : s.phase = .active) (concern : Concern) :
    Agrees config (done ++ [s.exchange (.raise concern)])
      (s.attempt (.raise concern)).session := by
  have hreply := h.reply_attempt hphase (.raise concern)
  rw [attempt, raise_eq hphase]
  apply h.leave hphase (by decide) rfl rfl
  intro call failure hfailure
  rw [Exchange.failure?, exchange, hreply] at hfailure
  cases hfailure
  exact ⟨by rw [lastFilename_append]; rfl, rfl, rfl⟩

theorem expressConcerns (h : Agrees config done s) (hphase : s.phase = .active) :
    Agrees config (done ++ [s.exchange .expressConcerns])
      (s.attempt .expressConcerns).session := by
  have hreply := h.reply_attempt hphase .expressConcerns
  obtain ⟨hconcerns, hbelow, -⟩ := h.active hphase
  have hsession : (s.attempt .expressConcerns).session = s.leave .concluded := by
    rw [attempt, expressConcerns_eq hphase, concludeOutcome]
    split <;> rfl
  rw [hsession]
  apply h.leave hphase (by decide) rfl rfl
  intro call failure hfailure
  rw [Exchange.failure?, exchange, hreply, dueReply] at hfailure
  by_cases hnone : reports done = []
  · rw [if_pos hnone] at hfailure
    cases hfailure
  · rw [if_neg hnone] at hfailure
    cases hfailure
    have hreports : reports (done ++ [s.exchange .expressConcerns]) = reports done := by
      rw [reports_append, Exchange.report?, exchange, if_pos hphase]
      exact List.append_nil _
    have hlast : lastLimit config (done ++ [s.exchange .expressConcerns]) =
        lastLimit config done := by
      rw [lastLimit_append]
      rfl
    refine ⟨by rw [lastFilename_append]; rfl, hreports.symm, ?_, ?_, rfl⟩
    · rw [hreports]
      exact List.length_pos_iff.mpr hnone
    · rwa [hreports, hlast]

theorem setFilename (h : Agrees config done s) (hphase : s.phase = .active) (filename : Text) :
    Agrees config (done ++ [s.exchange (.setFilename filename)])
      (s.attempt (.setFilename filename)).session := by
  have hreply := h.reply_attempt hphase (.setFilename filename)
  rw [attempt, setFilename_eq hphase]
  apply h.stay hphase
  · exact hphase
  · rw [Exchange.report?, exchange, if_pos hphase]
    exact (List.append_nil _).symm
  · rw [Exchange.filename?, exchange, hreply]
    rfl
  · rfl
  · rw [Exchange.failure?, exchange, hreply]
    rfl
  · exact h.size_lt hphase

/-- Every exchange keeps the session and its transcript in agreement. -/
theorem step (h : Agrees config done s) (call : Call) :
    Agrees config (done ++ [s.exchange call]) (s.attempt call).session := by
  by_cases hphase : s.phase = .active
  · cases hcall : call.report? with
    | some d =>
        by_cases hfull : s.ledger.size + 1 = s.ledger.limit.toNat
        · exact h.report_last hphase hcall hfull
        · exact h.report_kept hphase hcall hfull
    | none =>
        cases call with
        | worry concern => cases hcall
        | regret concern => cases hcall
        | raise concern => exact h.raise hphase concern
        | expressConcerns => exact h.expressConcerns hphase
        | setFilename filename => exact h.setFilename hphase filename
        | setLimit limit => exact h.setLimit hphase limit
        | concerns => exact h.quiet (if_pos hphase) rfl rfl rfl
  · rw [session_attempt_of_ne hphase]
    exact h.refused hphase call

/-- The agreement lasts for a whole run. -/
theorem run (h : Agrees config done s) (calls : List Call) :
    Agrees config (done ++ s.transcript calls) (s.after calls) := by
  induction calls generalizing done s with
  | nil => simpa [transcript, after] using h
  | cons call calls ih =>
      have hrest := ih (h.step call)
      rwa [List.append_assoc] at hrest

end Agrees

/-- A new session agrees with the empty transcript. -/
theorem agrees_ofConfig {config : Config} (hlimit : config.limit ≠ 0) :
    ∃ s, ofConfig config = .ok s ∧ s.phase = .active ∧ Agrees config [] s := by
  refine ⟨fresh config hlimit, ofConfig_eq hlimit, rfl, rfl, rfl, ?_, ?_⟩
  · intro _
    exact ⟨rfl, (fresh config hlimit).limit_pos, rfl⟩
  · intro hne
    exact absurd rfl hne

/-- After any calls on a new session: while it is active it holds exactly the reports made so far
and gives every call the reply that is due; at most one call of the run failed; and that failure
is explained by the whole transcript. -/
theorem history_of_run (config : Config) (hlimit : config.limit ≠ 0) (calls : List Call) :
    ∃ s, ofConfig config = .ok s ∧ s.phase = .active ∧
      ((s.after calls).phase = .active →
        (s.after calls).concerns = reports (s.transcript calls) ∧
          ∀ call, ((s.after calls).attempt call).reply =
            dueReply config (s.transcript calls) call) ∧
      (failures (s.transcript calls)).length ≤ 1 ∧
      ∀ call failure, (call, failure) ∈ failures (s.transcript calls) →
        Explains config (s.transcript calls) call failure := by
  obtain ⟨s, hs, hphase, hstart⟩ := agrees_ofConfig hlimit
  have hend : Agrees config (s.transcript calls) (s.after calls) := by
    simpa using hstart.run calls
  refine ⟨s, hs, hphase, ?_, ?_⟩
  · intro hactive
    exact ⟨(hend.active hactive).1, hend.reply_attempt hactive⟩
  · by_cases hactive : (s.after calls).phase = .active
    · have hnone := (hend.active hactive).2.2
      constructor
      · simp [hnone]
      · intro call failure hmem
        simp [hnone] at hmem
    · exact (hend.inactive hactive).2

/-- The limit is raised while a worry is held, two changes are refused, and the third report
fails the session. A report after that is refused. -/
theorem history_with_refused_calls :
    (2 : UInt64) ≠ 0 ∧
      ∃ s, ofConfig ⟨['f'], 2⟩ = .ok s ∧
        let about (c : Char) : Concern := ⟨.adHoc [c], none, none⟩
        let calls : List Call :=
          [.worry (about 'a'), .setLimit 3, .setLimit 1, .regret (about 'b'), .setFilename ['g'],
            .setLimit 0, .worry (about 'c'), .regret (about 'd'), .expressConcerns]
        let failure : Failure :=
          ⟨['g'], [⟨about 'a', .worry⟩, ⟨about 'b', .regret⟩, ⟨about 'c', .worry⟩],
            .limitExceeded 3⟩
        failures (s.transcript calls) = [(.worry (about 'c'), failure)] ∧
          Explains ⟨['f'], 2⟩ (s.transcript calls) (.worry (about 'c')) failure := by
  refine ⟨by decide, ?_⟩
  obtain ⟨s, hs, -, -, -, hexplains⟩ := history_of_run ⟨['f'], 2⟩ (by decide)
    [.worry ⟨.adHoc ['a'], none, none⟩, .setLimit 3, .setLimit 1,
      .regret ⟨.adHoc ['b'], none, none⟩, .setFilename ['g'], .setLimit 0,
      .worry ⟨.adHoc ['c'], none, none⟩, .regret ⟨.adHoc ['d'], none, none⟩, .expressConcerns]
  cases hs
  exact ⟨_, rfl, rfl, hexplains _ _ List.mem_cons_self⟩

end ParseReport.Session
