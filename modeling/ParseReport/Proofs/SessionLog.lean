import Mathlib.Data.List.Forall2
import ParseReport.Proofs.SessionMisuse

/-!
# The log of a session

An accepted call that does more than look is logged by one event, and a refused call by none. The
log numbers the reports that were kept, and the event that ends a session, or its end while it is
active, gives their number.
-/

namespace ParseReport.Session

namespace Event

/-- The number that the event gives to a report that was kept. -/
def number? : Event → Option Nat
  | buffered _ _ number => some number
  | _ => none

/-- The event is one by which the call is logged. -/
def Tells (e : Event) (call : Call) : Prop :=
  match e with
  | buffered severity kind _ | limitReached severity kind .. =>
    ∃ d, call.report? = some d ∧ d.severity = severity ∧ d.kind = kind
  | panicRaised kind .. => ∃ concern, call = .raise concern ∧ concern.problem.kind = kind
  | concludedCleanly _ | concludedWithConcerns .. => call = .expressConcerns
  | filenameSet filename => call = .setFilename filename
  | limitSet limit => ∃ l : UInt64, call = .setLimit l ∧ l.toNat = limit
  | dropped .. => False

/-- The counts of the event are right where `kept` reports have been logged as kept. -/
def Accounts (kept : Nat) : Event → Prop
  | limitReached _ _ limit count _ => limit = kept + 1 ∧ count = kept + 1
  | panicRaised _ discarded _ => discarded = kept
  | concludedCleanly _ => kept = 0
  | concludedWithConcerns count _ => count = kept ∧ 1 ≤ kept
  | dropped count _ => count = kept
  | buffered .. | filenameSet _ | limitSet _ => True

variable {e : Event}

theorem number?_of_isEnding (hending : e.isEnding = true) : e.number? = none := by
  cases e with
  | buffered severity kind number => cases hending
  | _ => rfl

/-- What a call logs without ending the session counts nothing but the report itself. -/
theorem accounts_of_tells {call : Call} (htells : e.Tells call) (hgoing : e.isEnding = false)
    (kept : Nat) : e.Accounts kept := by
  cases e with
  | buffered severity kind number => trivial
  | filenameSet filename => trivial
  | limitSet limit => trivial
  | dropped count filename => exact htells.elim
  | _ => cases hgoing

end Event

/-- An accepted call that does more than look is logged. -/
theorem tells_of_accepted {s : Session} {call : Call} {reply : Reply}
    (hreply : (s.attempt call).reply = .ok reply) (hcall : call ≠ .concerns) :
    ∃ e, (s.attempt call).event? = some e ∧ e.Tells call := by
  have hphase : s.phase = .active := by
    apply active_of_accepted _ hreply
    cases call with
    | concerns => exact absurd rfl hcall
    | _ => exact Option.some_ne_none _
  cases hreport : call.report? with
  | some d =>
      rw [attempt_of_report? hphase hreport, Answer.ofOutcome, reportOutcome]
      split
      · exact ⟨_, rfl, d, hreport, rfl, rfl⟩
      · exact ⟨_, rfl, d, hreport, rfl, rfl⟩
  | none =>
      cases call with
      | worry concern => cases hreport
      | regret concern => cases hreport
      | raise concern =>
          rw [attempt, raise_eq hphase]
          exact ⟨_, rfl, concern, rfl, rfl⟩
      | expressConcerns =>
          rw [attempt, expressConcerns_eq hphase, Answer.ofOutcome, concludeOutcome]
          split
          · exact ⟨_, rfl, rfl⟩
          · exact ⟨_, rfl, rfl⟩
      | setFilename filename =>
          rw [attempt, setFilename_eq hphase]
          exact ⟨_, rfl, rfl⟩
      | setLimit limit =>
          rw [attempt, setLimit_eq hphase] at hreply ⊢
          cases hset : s.ledger.setLimit limit with
          | error misuse =>
              rw [hset] at hreply
              cases hreply
          | ok ledger => exact ⟨_, rfl, limit, rfl, rfl⟩
      | concerns => exact absurd rfl hcall

namespace Live

/-- Whether the call is carried out. -/
def accepts (live : Live) (call : Call) : Bool :=
  match live.attempt call with
  | .ok _ _ => true
  | .error _ _ => false

/-- The calls that are carried out and do more than look, in order. -/
def effective (live : Live) : List Call → List Call
  | [] => []
  | call :: calls =>
    let later := (live.next call).effective calls
    if live.accepts call ∧ call ≠ .concerns then call :: later else later

/-- The whole log of a session that goes out of use. -/
def closedLog (live : Live) : List Event := live.log ++ live.session.dropEvent?.toList

theorem closedLog_after (s : Session) (calls : List Call) :
    (Live.after ⟨s, []⟩ calls).closedLog = s.log calls := by
  rw [closedLog, after_eq, Session.log, List.nil_append]

variable {live : Live} {kept : Nat}

/-- One call adds one event to the log, unless it is refused or only looks. -/
theorem log_next (live : Live) (call : Call) :
    ∃ events, (live.next call).log = live.log ++ events ∧
      List.Forall₂ Event.Tells events
        (if live.accepts call ∧ call ≠ .concerns then [call] else []) := by
  rw [next_eq, accepts.eq_def, attempt_eq, settleAnswer]
  refine ⟨_, rfl, ?_⟩
  rcases live.session.attempt_cases call with ⟨misuse, -, hrefused⟩ | ⟨-, reply, hreply⟩
  · rw [hrefused, if_neg (fun hboth => Bool.false_ne_true hboth.1)]
    exact .nil
  · rw [hreply]
    by_cases hcall : call = .concerns
    · rw [if_neg (fun hboth => hboth.2 hcall), hcall]
      exact .nil
    · obtain ⟨e, hevent, htells⟩ := tells_of_accepted hreply hcall
      rw [if_pos ⟨rfl, hcall⟩, hevent]
      exact .cons htells .nil

/-- The calls of a run are logged in their order. -/
theorem log_after (live : Live) (calls : List Call) :
    ∃ events, (live.after calls).log = live.log ++ events ∧
      List.Forall₂ Event.Tells events (live.effective calls) := by
  induction calls generalizing live with
  | nil => exact ⟨[], (List.append_nil _).symm, .nil⟩
  | cons call calls ih =>
      obtain ⟨first, hfirst, htells⟩ := live.log_next call
      obtain ⟨later, hlater, hrest⟩ := ih (live.next call)
      refine ⟨first ++ later, ?_, ?_⟩
      · rw [← List.append_assoc, ← hfirst]
        exact hlater
      · rw [effective]
        split at htells
        · next heffective =>
          rw [if_pos heffective]
          exact List.rel_append htells hrest
        · next hsilent =>
          rw [if_neg hsilent]
          exact List.rel_append htells hrest

/-- The log of a session numbers `kept` reports. While the session is active, these are what it
holds, and nothing logged ends it. Once it is over, the last event ended it and counts them. -/
structure Accounted (live : Live) (kept : Nat) : Prop where
  numbers : live.log.filterMap Event.number? = List.range' 1 kept
  active : live.session.phase = .active →
    live.session.ledger.size = kept ∧ kept < live.session.ledger.limit.toNat ∧
      ∀ e ∈ live.log, e.isEnding = false
  ended : live.session.phase ≠ .active →
    ∃ before ending, live.log = before ++ [ending] ∧ (∀ e ∈ before, e.isEnding = false) ∧
      ending.isEnding = true ∧ ending.Accounts kept

namespace Accounted

/-- A call after which the session goes on is logged by the number of the report that it kept, or
by no number. -/
theorem stay (h : live.Accounted kept) (hphase : live.session.phase = .active) {s : Session}
    {e : Event} {n : Nat} (hphase' : s.phase = .active) (hgoing : e.isEnding = false)
    (hnumber : e.number?.toList = List.range' (1 + kept) n) (hsize : s.ledger.size = kept + n)
    (hroom : s.ledger.size < s.ledger.limit.toNat) :
    Accounted ⟨s, live.log ++ [e]⟩ (kept + n) := by
  obtain ⟨-, -, hnone⟩ := h.active hphase
  constructor
  · change (live.log ++ [e]).filterMap Event.number? = _
    have hlast : [e].filterMap Event.number? = e.number?.toList := by
      cases hn : e.number? <;> simp [hn]
    rw [List.filterMap_append, h.numbers, hlast, hnumber, List.range'_append_1]
  · intro _
    refine ⟨hsize, hsize ▸ hroom, ?_⟩
    intro e' hmem
    rcases List.mem_append.mp hmem with hbefore | hlast
    · exact hnone e' hbefore
    · rwa [List.mem_singleton.mp hlast]
  · intro hne
    exact absurd hphase' hne

/-- A call that ends the session is logged by an event that counts the reports kept. -/
theorem leave (h : live.Accounted kept) (hphase : live.session.phase = .active) {phase : Phase}
    {e : Event} (hleft : phase ≠ .active) (hending : e.isEnding = true)
    (haccounts : e.Accounts kept) :
    Accounted ⟨live.session.leave phase, live.log ++ [e]⟩ kept := by
  obtain ⟨-, -, hnone⟩ := h.active hphase
  constructor
  · change (live.log ++ [e]).filterMap Event.number? = _
    have hlast : [e].filterMap Event.number? = [] :=
      List.filterMap_cons_none (Event.number?_of_isEnding hending)
    rw [List.filterMap_append, h.numbers, hlast, List.append_nil]
  · intro hactive
    exact absurd hactive hleft
  · intro _
    exact ⟨live.log, e, rfl, hnone, hending, haccounts⟩

/-- A report is kept with the next number, or it is the one that reaches the limit. -/
theorem report (h : live.Accounted kept) (hphase : live.session.phase = .active) (d : Diagnostic) :
    ∃ kept', Accounted ⟨(live.session.reportOutcome d).session,
      live.log ++ [(live.session.reportOutcome d).event]⟩ kept' := by
  obtain ⟨hsize, hroom, -⟩ := h.active hphase
  rw [reportOutcome]
  by_cases hfull : live.session.ledger.limit.toNat ≤ live.session.ledger.size + 1
  · rw [if_pos hfull]
    -- There was room for one more than are kept, so the limit reached is exactly one more.
    exact ⟨kept, h.leave hphase (by decide) rfl ⟨by omega, by rw [hsize]⟩⟩
  · rw [if_neg hfull]
    have hadded : (live.session.keep d).ledger.size = kept + 1 := by
      rw [← hsize]
      exact live.session.ledger.size_add d
    refine ⟨kept + 1, h.stay hphase hphase rfl ?_ hadded ?_⟩
    · rw [hsize, Nat.add_comm]
      rfl
    · rw [hadded, ← hsize]
      exact Nat.not_le.mp hfull

theorem expressConcerns (h : live.Accounted kept) (hphase : live.session.phase = .active) :
    Accounted ⟨live.session.concludeOutcome.session,
      live.log ++ [live.session.concludeOutcome.event]⟩ kept := by
  obtain ⟨hsize, -, -⟩ := h.active hphase
  rw [concludeOutcome]
  by_cases hnone : live.session.concerns = []
  · rw [if_pos hnone]
    have hzero : kept = 0 := by
      rw [← hsize]
      exact congrArg List.length hnone
    exact h.leave hphase (by decide) rfl hzero
  · rw [if_neg hnone]
    have hpos : 1 ≤ kept := by
      rw [← hsize]
      exact List.length_pos_iff.mpr hnone
    exact h.leave hphase (by decide) rfl ⟨hsize, hpos⟩

/-- An accepted limit leaves room, so that the reports go on being numbered. -/
theorem setLimit (h : live.Accounted kept) (hphase : live.session.phase = .active)
    (limit : UInt64) : (live.next (.setLimit limit)).Accounted kept := by
  obtain ⟨hsize, -, -⟩ := h.active hphase
  rw [next_eq, Session.attempt, setLimit_eq hphase]
  rcases live.session.ledger.setLimit_cases limit with
    ⟨misuse, hset⟩ | ⟨ledger, hset, hroom, hlist, -, hlimit⟩
  · rw [hset]
    change Accounted ⟨live.session, live.log ++ []⟩ kept
    rwa [List.append_nil]
  · rw [hset]
    have hsize' : ledger.size = kept := (congrArg List.length hlist).trans hsize
    exact h.stay hphase (n := 0) hphase rfl rfl hsize' (by
      change ledger.size < ledger.limit.toNat
      rw [hlimit, hsize', ← hsize]
      exact hroom)

/-- Every call keeps the log and the session in step. -/
theorem next (h : live.Accounted kept) (call : Call) :
    ∃ kept', (live.next call).Accounted kept' := by
  by_cases hphase : live.session.phase = .active
  · cases hreport : call.report? with
    | some d =>
        rw [next_eq, attempt_of_report? hphase hreport]
        exact h.report hphase d
    | none =>
        obtain ⟨hsize, hroom, -⟩ := h.active hphase
        cases call with
        | worry concern => cases hreport
        | regret concern => cases hreport
        | raise concern =>
            rw [next_eq, Session.attempt, raise_eq hphase]
            exact ⟨kept, h.leave hphase (by decide) rfl hsize⟩
        | expressConcerns =>
            rw [next_eq, Session.attempt, expressConcerns_eq hphase]
            exact ⟨kept, h.expressConcerns hphase⟩
        | setFilename filename =>
            rw [next_eq, Session.attempt, setFilename_eq hphase]
            exact ⟨kept, h.stay hphase (n := 0) hphase rfl rfl hsize (hsize ▸ hroom)⟩
        | setLimit limit => exact ⟨kept, h.setLimit hphase limit⟩
        | concerns =>
            rw [next_eq]
            change ∃ kept', Accounted ⟨live.session, live.log ++ []⟩ kept'
            rw [List.append_nil]
            exact ⟨kept, h⟩
  · refine ⟨kept, ?_⟩
    have hsame : live.next call = live := after_of_ne hphase [call]
    rwa [hsame]

/-- So does a whole run. -/
theorem after (h : live.Accounted kept) (calls : List Call) :
    ∃ kept', (live.after calls).Accounted kept' := by
  induction calls generalizing live kept with
  | nil => exact ⟨kept, h⟩
  | cons call calls ih =>
      obtain ⟨kept', hnext⟩ := h.next call
      exact ih hnext

/-- The end of a session is logged where nothing else ended it and reports were kept. -/
theorem dropEvent? (h : live.Accounted kept) :
    live.session.dropEvent? =
      if (∀ e ∈ live.log, e.isEnding = false) ∧ 1 ≤ kept then
        some (.dropped kept live.session.ledger.filename)
      else none := by
  by_cases hphase : live.session.phase = .active
  · obtain ⟨hsize, -, hnone⟩ := h.active hphase
    have hkept : ¬live.session.ledger.isEmpty = true ↔ 1 ≤ kept := by
      rw [isEmpty_iff, ← hsize]
      exact List.length_pos_iff.symm
    rw [Session.dropEvent?, hsize]
    simp only [hphase, hkept, true_and]
    exact if_congr (and_iff_right hnone).symm rfl rfl
  · obtain ⟨before, ending, hlog, -, hending, -⟩ := h.ended hphase
    have hmem : ending ∈ live.log := by
      rw [hlog]
      exact List.mem_append_right _ List.mem_cons_self
    rw [dropEvent?_of_ne hphase, if_neg]
    intro hboth
    exact Bool.false_ne_true ((hboth.1 ending hmem).symm.trans hending)

theorem eq_dropped_of_mem (h : live.Accounted kept) {e : Event}
    (hmem : e ∈ live.session.dropEvent?.toList) :
    e = .dropped kept live.session.ledger.filename := by
  rw [h.dropEvent?, Option.mem_toList] at hmem
  split at hmem
  · exact (Option.some.inj hmem).symm
  · cases hmem

/-- The end of a session has no number of its own. -/
theorem numbers_closedLog (h : live.Accounted kept) :
    live.closedLog.filterMap Event.number? = List.range' 1 kept := by
  rw [closedLog, List.filterMap_append, h.numbers, h.dropEvent?]
  split <;> exact List.append_nil _

/-- Nothing in the log ends the session, or only its last event may. -/
theorem closedLog_cases (h : live.Accounted kept) :
    (∀ e ∈ live.closedLog, e.isEnding = false) ∨
      ∃ before ending, live.closedLog = before ++ [ending] ∧
        ∀ e ∈ before, e.isEnding = false := by
  by_cases hphase : live.session.phase = .active
  · refine .inl fun e hmem => ?_
    rcases List.mem_append.mp hmem with hcalls | hdrop
    · exact (h.active hphase).2.2 e hcalls
    · rw [h.eq_dropped_of_mem hdrop]
      rfl
  · obtain ⟨before, ending, hlog, hbefore, -, -⟩ := h.ended hphase
    refine .inr ⟨before, ending, ?_, hbefore⟩
    rw [closedLog, dropEvent?_of_ne hphase, hlog]
    exact List.append_nil _

theorem countP_isEnding_le_one (h : live.Accounted kept) :
    live.closedLog.countP Event.isEnding ≤ 1 := by
  rcases h.closedLog_cases with hnone | ⟨before, ending, hlog, hbefore⟩
  · have hzero : live.closedLog.countP Event.isEnding = 0 :=
      List.countP_eq_zero.mpr fun e hmem => Bool.eq_false_iff.mp (hnone e hmem)
    omega
  · have hzero : before.countP Event.isEnding = 0 :=
      List.countP_eq_zero.mpr fun e hmem => Bool.eq_false_iff.mp (hbefore e hmem)
    have hone : [ending].countP Event.isEnding ≤ 1 := List.countP_le_length
    rw [hlog, List.countP_append]
    omega

theorem isEnding_of_mem_dropLast (h : live.Accounted kept) {e : Event}
    (hmem : e ∈ live.closedLog.dropLast) : e.isEnding = false := by
  rcases h.closedLog_cases with hnone | ⟨before, ending, hlog, hbefore⟩
  · exact hnone e (List.dropLast_subset _ hmem)
  · rw [hlog, List.dropLast_concat] at hmem
    exact hbefore e hmem

/-- Every count in the log is right. The end of a session may count the reports itself; other than
that, every event was logged by a call. -/
theorem accounts_of_mem (h : live.Accounted kept) {calls : List Call}
    (htells : List.Forall₂ Event.Tells live.log calls) {e : Event} (hmem : e ∈ live.closedLog) :
    e.Accounts kept := by
  have hgoing : ∀ e ∈ live.log, e.isEnding = false → e.Accounts kept :=
    ((List.forall₂_and_left _ _).mp (htells.imp fun e call htell =>
      ⟨fun hgoing => Event.accounts_of_tells htell hgoing kept, htell⟩)).1
  rcases List.mem_append.mp hmem with hcalls | hdrop
  · by_cases hphase : live.session.phase = .active
    · exact hgoing e hcalls ((h.active hphase).2.2 e hcalls)
    · obtain ⟨before, ending, hlog, hbefore, -, haccounts⟩ := h.ended hphase
      rw [hlog] at hcalls
      rcases List.mem_append.mp hcalls with hfirst | hlast
      · exact hgoing e (hlog ▸ hcalls) (hbefore e hfirst)
      · rwa [List.mem_singleton.mp hlast]
  · rw [h.eq_dropped_of_mem hdrop]
    rfl

end Accounted

end Live

/-- A new session has logged nothing and holds nothing. -/
theorem accounted_fresh {config : Config} (hlimit : config.limit ≠ 0) :
    Live.Accounted ⟨fresh config hlimit, []⟩ 0 := by
  refine ⟨rfl, fun _ => ⟨rfl, (fresh config hlimit).limit_pos, ?_⟩, fun hne => absurd rfl hne⟩
  intro e hmem
  cases hmem

/-- After any calls on a new session the log has one event for each call that was carried out and
did more than look, in call order, and after them at most a warning of its end. The kept reports
are numbered from one without a gap. At most one event ends the session, and none comes after it.
All counts are right, and the warning comes exactly if no event ended the session and reports were
kept. -/
theorem log_of_run (config : Config) (hlimit : config.limit ≠ 0) (calls : List Call) :
    ∃ s, ofConfig config = .ok s ∧
      let live := Live.after ⟨s, []⟩ calls
      let kept := ((s.log calls).filterMap Event.number?).length
      s.log calls = live.log ++ live.session.dropEvent?.toList ∧
      List.Forall₂ Event.Tells live.log (Live.effective ⟨s, []⟩ calls) ∧
      (s.log calls).filterMap Event.number? = List.range' 1 kept ∧
      (s.log calls).countP Event.isEnding ≤ 1 ∧
      (∀ e ∈ (s.log calls).dropLast, e.isEnding = false) ∧
      (∀ e ∈ s.log calls, e.Accounts kept) ∧
      live.session.dropEvent? =
        if (∀ e ∈ live.log, e.isEnding = false) ∧ 1 ≤ kept then
          some (.dropped kept live.session.ledger.filename)
        else none := by
  obtain ⟨kept, hend⟩ := (accounted_fresh hlimit).after calls
  obtain ⟨events, hlog, htells⟩ := Live.log_after ⟨fresh config hlimit, []⟩ calls
  obtain rfl : _ = events := hlog
  have hnumbers := hend.numbers_closedLog
  refine ⟨fresh config hlimit, ofConfig_eq hlimit, ?_⟩
  rw [← Live.closedLog_after, hnumbers, List.length_range']
  exact ⟨rfl, htells, rfl, hend.countP_isEnding_le_one, fun e => hend.isEnding_of_mem_dropLast,
    fun e => hend.accounts_of_mem htells, hend.dropEvent?⟩

/-- A limit is refused and another accepted between two reports, and the session ends with both
held. -/
theorem log_with_warning :
    (2 : UInt64) ≠ 0 ∧ ∃ s, ofConfig ⟨['f'], 2⟩ = .ok s ∧
      let about (c : Char) : Concern := ⟨.adHoc [c], none, none⟩
      let calls : List Call :=
        [.worry (about 'a'), .setLimit 1, .setLimit 3, .concerns, .setFilename ['g'],
          .regret (about 'b')]
      let kind : Text := "adhoc".toList
      s.log calls =
          [.buffered .worry kind 1, .limitSet 3, .filenameSet ['g'], .buffered .regret kind 2,
            .dropped 2 ['g']] ∧
        List.Forall₂ Event.Tells
          [.buffered .worry kind 1, .limitSet 3, .filenameSet ['g'], .buffered .regret kind 2]
          [.worry (about 'a'), .setLimit 3, .setFilename ['g'], .regret (about 'b')] ∧
        ∀ e ∈ s.log calls, e.Accounts 2 := by
  refine ⟨by decide, ?_⟩
  obtain ⟨s, hs, -, htells, -, -, -, haccounts, -⟩ := log_of_run ⟨['f'], 2⟩ (by decide)
    [.worry ⟨.adHoc ['a'], none, none⟩, .setLimit 1, .setLimit 3, .concerns, .setFilename ['g'],
      .regret ⟨.adHoc ['b'], none, none⟩]
  cases hs
  exact ⟨_, rfl, rfl, htells, haccounts⟩

end ParseReport.Session
