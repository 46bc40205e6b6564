import ParseReport.Proofs.Truncation

/-!
# A check uses its session well

What a scan does to its session is a run of session calls. A scan that comes to its end without a
breach has had each of these calls accepted, so the session was active at each of them. That every
scan of a text that fits comes to its end this way, with its session over, is what is left to
show of a check.
-/

namespace ParseReport

namespace Session

/-- Whether the call was carried out. -/
def Answer.isAccepted (a : Answer) : Bool := a.reply.isOk

theorem active_of_isAccepted {s : Session} {call : Call} (hoperation : call.operation? ≠ none)
    (h : (s.attempt call).isAccepted = true) : s.phase = .active := by
  rw [Answer.isAccepted] at h
  cases hreply : (s.attempt call).reply with
  | ok reply => exact active_of_accepted hoperation hreply
  | error misuse =>
      rw [hreply] at h
      cases h

end Session

namespace Check

/-- What an event of a check tells of its session. -/
def Event.session? : Event → Option Session.Event
  | session event => some event
  | _ => none

namespace Scan

/-- The session events in the log of a scan. -/
def sessionEvents (s : Scan) : List Session.Event := s.log.toList.filterMap Event.session?

theorem sessionEvents_note (s : Scan) (event : Event) :
    (s.note event).sessionEvents = s.sessionEvents ++ event.session?.toList := by
  cases h : event.session? <;> simp [sessionEvents, note, h]

/-- The scan has made these calls on `session`, and all of them were carried out. -/
structure Uses (session : Session) (calls : List Session.Call) (s : Scan) : Prop where
  session_eq : s.session = session.after calls
  operations : ∀ call ∈ calls, call.operation? ≠ none
  accepted : ∀ answer ∈ session.run calls, answer.isAccepted = true
  events : s.sessionEvents = (session.run calls).filterMap Session.Answer.event?

end Scan

/-- The scan of a step, whether it failed or not. -/
def Progress.scan : Progress → Scan
  | going s => s
  | failed s _ => s

/-- An accepted report leaves a scan with the session after it and one event more. -/
theorem Scan.scan_follow {s : Scan} {p : Progress} {outcome : Session.Outcome}
    (hfollow : s.follow (.ok outcome) = .ok p) :
    p.scan = { s with session := outcome.session }.note (.session outcome.event) := by
  rw [Scan.follow] at hfollow
  cases hfailure : outcome.failure with
  | none =>
      rw [hfailure] at hfollow
      cases hfollow
      rfl
  | some failure =>
      rw [hfailure] at hfollow
      cases hfollow
      rfl

namespace Scan.Uses
variable {session : Session} {calls : List Session.Call} {s : Scan} {p : Progress}

/-- What is not a session event leaves the use of the session as it is. -/
theorem note (h : s.Uses session calls) {event : Event} (hevent : event.session? = none) :
    (s.note event).Uses session calls := by
  refine ⟨h.session_eq, h.operations, h.accepted, ?_⟩
  rw [sessionEvents_note, hevent, ← h.events]
  exact List.append_nil _

/-- A scan that takes over the answer to a call has had it carried out. -/
theorem follow (h : s.Uses session calls) {call : Session.Call}
    {answer : Except Misuse Session.Outcome} (hoperation : call.operation? ≠ none)
    (hattempt : s.session.attempt call = .ofOutcome s.session answer)
    (hfollow : s.follow answer = .ok p) : p.scan.Uses session (calls ++ [call]) := by
  cases answer with
  | error misuse => cases hfollow
  | ok outcome =>
      have hscan := Scan.scan_follow hfollow
      have hanswer : (session.after calls).attempt call =
          ⟨.ok outcome.reply, outcome.session, some outcome.event⟩ := by
        rw [← h.session_eq, hattempt]
        rfl
      have hrun : session.run (calls ++ [call]) =
          session.run calls ++ [⟨.ok outcome.reply, outcome.session, some outcome.event⟩] := by
        rw [Session.run_append, Session.run, hanswer]
        rfl
      rw [hscan]
      constructor
      · rw [Session.after_append]
        exact congrArg Session.Answer.session hanswer.symm
      · intro call' hcall'
        rcases List.mem_append.mp hcall' with hcall' | hcall'
        · exact h.operations call' hcall'
        · rw [List.mem_singleton.mp hcall']
          exact hoperation
      · intro answer hanswer
        rw [hrun] at hanswer
        rcases List.mem_append.mp hanswer with hanswer | hanswer
        · exact h.accepted answer hanswer
        · rw [List.mem_singleton.mp hanswer]
          rfl
      · rw [sessionEvents_note, hrun, List.filterMap_append, ← h.events]
        rfl

theorem perform (h : s.Uses session calls) {act : Act} (hact : s.perform act = .ok p) :
    ∃ more, p.scan.Uses session (calls ++ more) := by
  cases act with
  | opened delimiter offset =>
      cases hact
      exact ⟨[], by rw [List.append_nil]; exact h.note rfl⟩
  | closed opener closer offset =>
      cases hact
      have hnote : (s.note (.closed opener closer offset)).Uses session calls := h.note rfl
      refine ⟨[], ?_⟩
      rw [List.append_nil]
      exact ⟨hnote.session_eq, hnote.operations, hnote.accepted, hnote.events⟩
  | worry concern => exact ⟨[.worry concern], h.follow nofun rfl hact⟩
  | regret concern => exact ⟨[.regret concern], h.follow nofun rfl hact⟩

theorem play (h : s.Uses session calls) {acts : List Act} (hplay : s.play acts = .ok p) :
    ∃ more, p.scan.Uses session (calls ++ more) := by
  induction acts generalizing s calls with
  | nil =>
      cases hplay
      exact ⟨[], by rwa [List.append_nil]⟩
  | cons act acts ih =>
      rw [Scan.play] at hplay
      cases hact : s.perform act with
      | error breach =>
          rw [hact] at hplay
          cases hplay
      | ok q =>
          rw [hact] at hplay
          obtain ⟨first, hfirst⟩ := h.perform hact
          cases q with
          | going s' =>
              obtain ⟨later, hlater⟩ := ih hfirst hplay
              exact ⟨first ++ later, by rwa [← List.append_assoc]⟩
          | failed s' failure =>
              cases hplay
              exact ⟨first, hfirst⟩

/-- The last call of all raises a panic or ends the session. -/
theorem settle (h : s.Uses session calls) {t : Text} {quote? : Option Text}
    (hsettle : s.settle t quote? = .ok p) : ∃ more, p.scan.Uses session (calls ++ more) := by
  cases quote? with
  | some quote => exact ⟨[.raise (cutOff t quote)], h.follow nofun rfl hsettle⟩
  | none => exact ⟨[.expressConcerns], h.follow nofun rfl hsettle⟩

theorem of_bare (h : s.bare.Uses session calls) : s.Uses session calls :=
  ⟨h.session_eq, h.operations, h.accepted, h.events⟩

/-- At each of the calls the session was active. -/
theorem active (h : s.Uses session calls) {earlier later : List Session.Call}
    {call : Session.Call} (hcalls : calls = earlier ++ call :: later) :
    (session.after earlier).phase = .active := by
  have hmem : (session.after earlier).attempt call ∈ session.run calls := by
    rw [hcalls, Session.run_append, Session.run]
    exact List.mem_append_right _ List.mem_cons_self
  have hoperation : call.operation? ≠ none := by
    apply h.operations
    rw [hcalls]
    exact List.mem_append_right _ List.mem_cons_self
  exact Session.active_of_isAccepted hoperation (h.accepted _ hmem)

end Scan.Uses

theorem start_uses (session : Session) : (Scan.start session).Uses session [] := by
  constructor
  · rfl
  · intro call hmem
    exact absurd hmem List.not_mem_nil
  · intro answer hmem
    exact absurd hmem List.not_mem_nil
  · rfl

/-- A scan of a text that fits has used its session by calls that were all carried out. -/
theorem exists_uses_of_scan {t : Text} (hfits : t.size + 2 ≤ maxOffset) {session : Session}
    {p : Progress} (hscan : scan t session = .ok p) : ∃ calls, p.scan.Uses session calls := by
  have hplay := scan_eq_play hfits session
  rw [hscan] at hplay
  have hbare : ∃ calls, p.bare.scan.Uses session calls := by
    cases hacts : (Scan.start session).play (acts t) with
    | error breach =>
        rw [hacts] at hplay
        cases hplay
    | ok q =>
        rw [hacts] at hplay
        obtain ⟨calls, hcalls⟩ := (start_uses session).play hacts
        cases q with
        | going s =>
            obtain ⟨more, hmore⟩ := hcalls.settle hplay.symm
            exact ⟨_, hmore⟩
        | failed s failure =>
            have hend : p.bare = .failed s failure := Except.ok.inj hplay
            rw [hend]
            exact ⟨calls, hcalls⟩
  obtain ⟨calls, hcalls⟩ := hbare
  refine ⟨calls, ?_⟩
  cases p <;> exact hcalls.of_bare

/-- A reported failure holds something, and no more than the limit allows. -/
theorem length_of_verdict {t : Text} {config : Config} (hlimit : config.limit ≠ 0)
    {failure : Failure} (hverdict : verdict t config = .error (.reported failure)) :
    1 ≤ failure.diagnostics.length ∧ failure.diagnostics.length ≤ config.limit.toNat := by
  have hpositive : 1 ≤ config.limit.toNat := (Session.fresh config hlimit).limit_pos
  rcases diagnostics_of_verdict hlimit hverdict with ⟨hdiagnostics, hsome⟩ | ⟨quote, hdiagnostics⟩
  · have hfindings : 1 ≤ (findings t).length := List.length_pos_iff.mpr hsome
    rw [hdiagnostics, List.length_take]
    omega
  · rw [hdiagnostics]
    exact ⟨Nat.le_refl 1, hpositive⟩

theorem dropEvent?_of_isOver {session : Session} (h : session.IsOver) :
    session.dropEvent? = none :=
  Session.dropEvent?_of_ne h.1

/-- Whatever the limit, a check of a text that fits breaks no rule: none of its calls is refused,
no span and no slice fails on the way. Each call it makes on its session finds it active. It ends
with the session over and nothing left to warn of, and a failure that it reports holds at least
one diagnostic and at most as many as the limit says. -/
theorem check_uses_session_well (t : Text) (config : Config) (hfits : t.size + 2 ≤ maxOffset)
    (hlimit : config.limit ≠ 0) :
    ∃ session p calls, Session.ofConfig config = .ok session ∧ scan t session = .ok p ∧
      check t config = .ok (p.outcome t) ∧
      (p.session = session.after calls ∧
        p.scan.sessionEvents = (session.run calls).filterMap Session.Answer.event? ∧
        (∀ answer ∈ session.run calls, answer.isAccepted = true) ∧
        ∀ earlier call later, calls = earlier ++ call :: later →
          call ≠ .concerns ∧ (session.after earlier).phase = .active) ∧
      (p.session.phase ≠ .active ∧ p.session.concerns = [] ∧ p.session.dropEvent? = none) ∧
      ∀ failure, (p.outcome t).result = .error (.reported failure) →
        1 ≤ failure.diagnostics.length ∧ failure.diagnostics.length ≤ config.limit.toNat := by
  obtain ⟨p, hscan, hover, hresult⟩ := scan_verdict hfits (start_holds hlimit)
  obtain ⟨calls, huses⟩ := exists_uses_of_scan hfits hscan
  have hcheck := check_of_scan hfits hlimit hscan
  have hsession : p.session = p.scan.session := by cases p <;> rfl
  refine ⟨.fresh config hlimit, p, calls, Session.ofConfig_eq hlimit, hscan, hcheck,
    ⟨hsession.trans huses.session_eq, huses.events, huses.accepted, ?_⟩,
    ⟨hover.1, hover.2, dropEvent?_of_isOver hover⟩, ?_⟩
  · intro earlier call later hcalls
    have hmem : call ∈ calls := by
      rw [hcalls]
      exact List.mem_append_right _ List.mem_cons_self
    refine ⟨?_, huses.active hcalls⟩
    rintro rfl
    exact huses.operations _ hmem rfl
  · intro failure hfailure
    rw [hresult] at hfailure
    exact length_of_verdict hlimit hfailure

/-- A limit of one is reached by the first closer, and the literal after it is never read. -/
theorem check_uses_session_up_to_limit :
    Text.size ")\"".toList + 2 ≤ maxOffset ∧ (⟨['f'], 1⟩ : Config).limit ≠ 0 ∧
      ∃ p : Progress, check ")\"".toList ⟨['f'], 1⟩ = .ok (p.outcome ")\"".toList) ∧
        p.session.phase ≠ .active ∧ p.session.concerns = [] ∧ p.session.dropEvent? = none := by
  have hfits : Text.size ")\"".toList + 2 ≤ maxOffset := by decide
  obtain ⟨session, p, calls, -, -, hcheck, -, hover, -⟩ :=
    check_uses_session_well ")\"".toList ⟨['f'], 1⟩ hfits (by decide)
  exact ⟨hfits, by decide, p, hcheck, hover⟩

end Check

end ParseReport
