import ParseReport.Session.Call

/-!
# What an active session answers

An active session holds fewer diagnostics than its limit. From that alone the answer to every
call can be written down: a report is kept or, as the one that reaches the limit, fails the
session with all that is held.
-/

namespace ParseReport

/-- A severity that may be held back escalates exactly when the count with it reaches the limit. -/
theorem Action.classify_eq {buffered : Nat} {limit : UInt64} {severity : Severity}
    (hseverity : severity ≠ .panic) :
    classify buffered limit severity =
      if limit.toNat ≤ buffered + 1 then bufferThenEscalate else buffer := by
  have hbufferable : severity.isBufferable = true := by
    rw [← Bool.not_eq_false, Severity.isBufferable_eq_false_iff]
    exact hseverity
  have hbound : limit.toNat ≤ min (buffered + 1) maxCount ↔ limit.toNat ≤ buffered + 1 := by
    have := limit.toNat_lt
    unfold maxCount
    omega
  simp only [classify, hbufferable, if_true, hbound]

namespace Ledger

/-- The ledger with one more diagnostic. -/
def add (l : Ledger) (d : Diagnostic) : Ledger := { l with buffered := l.buffered.push d }

@[simp] theorem toList_add (l : Ledger) (d : Diagnostic) : (l.add d).toList = l.toList ++ [d] := by
  simp [add, toList]

@[simp] theorem size_add (l : Ledger) (d : Diagnostic) : (l.add d).size = l.size + 1 := by
  simp [size_eq_length]

theorem record_eq (l : Ledger) {d : Diagnostic} (hseverity : d.severity ≠ .panic) :
    l.record d =
      .ok (if l.limit.toNat ≤ l.size + 1 then .bufferThenEscalate else .buffer, l.add d) := by
  rw [record, Action.classify_eq hseverity]
  by_cases hfull : l.limit.toNat ≤ l.size + 1
  · simp [hfull, add]
  · simp [hfull, add]

/-- A change of the limit is refused, or leaves room for one more diagnostic at least. -/
theorem setLimit_cases (l : Ledger) (limit : UInt64) :
    (∃ misuse, l.setLimit limit = .error misuse) ∨
      ∃ l', l.setLimit limit = .ok l' ∧ l.size < limit.toNat ∧ l'.toList = l.toList ∧
        l'.filename = l.filename ∧ l'.limit = limit := by
  rw [setLimit]
  by_cases hzero : limit = 0
  · exact .inl ⟨_, dif_pos hzero⟩
  · by_cases hle : limit.toNat ≤ l.size
    · exact .inl ⟨.limitNotAbove limit.toNat l.size, by rw [dif_neg hzero, if_pos hle]⟩
    · refine .inr ⟨{ l with limit, limit_ne_zero := hzero }, ?_, by omega, rfl, rfl, rfl⟩
      rw [dif_neg hzero, if_neg hle]

end Ledger

namespace Session

/-- A session right after its start. -/
def fresh (config : Config) (hlimit : config.limit ≠ 0) : Session :=
  ⟨⟨#[], config.limit, config.filename, hlimit⟩, .active⟩

theorem ofConfig_eq {config : Config} (hlimit : config.limit ≠ 0) :
    ofConfig config = .ok (fresh config hlimit) := by
  rw [ofConfig, Ledger.create, dif_neg hlimit]
  rfl

/-- The limit of a session is not zero, so that a fresh one has room for a diagnostic. -/
theorem limit_pos (s : Session) : 0 < s.ledger.limit.toNat := by
  apply Nat.pos_of_ne_zero
  intro hzero
  exact s.ledger.limit_ne_zero (UInt64.toNat_inj.mp hzero)

/-- The session with one more diagnostic. -/
def keep (s : Session) (d : Diagnostic) : Session := { s with ledger := s.ledger.add d }

/-- The session with nothing held, in another phase. -/
def leave (s : Session) (phase : Phase) : Session := ⟨s.ledger.drain.2, phase⟩

variable {s : Session}

theorem ensureActive_of_active (hphase : s.phase = .active) (operation : Operation) :
    s.ensureActive operation = .ok () :=
  if_pos hphase

theorem ensureActive_of_ne (hphase : s.phase ≠ .active) (operation : Operation) :
    s.ensureActive operation = .error (.notActive operation s.ledger.filename s.phase) :=
  if_neg hphase

/-- The outcome of a report on an active session. -/
def reportOutcome (s : Session) (d : Diagnostic) : Outcome :=
  if s.ledger.limit.toNat ≤ s.ledger.size + 1 then
    ⟨s.leave .escalated,
      .limitReached d.severity d.kind s.ledger.limit.toNat (s.ledger.size + 1) s.ledger.filename,
      some ⟨s.ledger.filename, s.concerns ++ [d], .limitExceeded s.ledger.limit.toNat⟩⟩
  else
    ⟨s.keep d, .buffered d.severity d.kind (s.ledger.size + 1), none⟩

theorem report_eq (hphase : s.phase = .active) {severity : Severity}
    (hseverity : severity ≠ .panic) (concern : Concern) :
    s.report severity concern = .ok (s.reportOutcome ⟨concern, severity⟩) := by
  have hrecord := s.ledger.record_eq (d := ⟨concern, severity⟩) hseverity
  rw [report, ensureActive_of_active hphase, reportOutcome]
  by_cases hfull : s.ledger.limit.toNat ≤ s.ledger.size + 1
  · rw [if_pos hfull] at hrecord ⊢
    simp [bind, Except.bind, pure, Except.pure, hrecord, leave, Ledger.drain, concerns,
      Ledger.size_eq_length, Ledger.add, Ledger.toList]
  · rw [if_neg hfull] at hrecord ⊢
    simp [bind, Except.bind, pure, Except.pure, hrecord, keep]

theorem raise_eq (hphase : s.phase = .active) (concern : Concern) :
    s.raise concern =
      .ok ⟨s.leave .raised,
        .panicRaised concern.problem.kind s.ledger.size s.ledger.filename,
        some ⟨s.ledger.filename, [⟨concern, .panic⟩], .panic⟩⟩ := by
  rw [raise, ensureActive_of_active hphase]
  rfl

theorem isEmpty_iff : s.ledger.isEmpty = true ↔ s.concerns = [] := by
  simp [Ledger.isEmpty, concerns, Ledger.toList]

/-- Where nothing is held there is nothing to take out. -/
theorem leave_of_concerns_eq_nil (h : s.concerns = []) (phase : Phase) :
    s.leave phase = { s with phase } := by
  obtain ⟨⟨buffered, limit, filename, hlimit⟩, before⟩ := s
  obtain rfl : buffered = #[] := Array.toList_eq_nil_iff.mp h
  rfl

/-- The outcome of ending an active session. -/
def concludeOutcome (s : Session) : Outcome :=
  if s.concerns = [] then
    ⟨s.leave .concluded, .concludedCleanly s.ledger.filename, none⟩
  else
    ⟨s.leave .concluded, .concludedWithConcerns s.ledger.size s.ledger.filename,
      some ⟨s.ledger.filename, s.concerns, .concerns⟩⟩

theorem expressConcerns_eq (hphase : s.phase = .active) :
    s.expressConcerns = .ok s.concludeOutcome := by
  rw [expressConcerns, ensureActive_of_active hphase, concludeOutcome]
  by_cases h : s.concerns = []
  · rw [if_pos h]
    simp [bind, Except.bind, pure, Except.pure, isEmpty_iff.mpr h, leave, Ledger.drain]
  · rw [if_neg h]
    simp [bind, Except.bind, pure, Except.pure, mt isEmpty_iff.mp h, leave, Ledger.drain, concerns,
      Ledger.size_eq_length]

theorem setFilename_eq (hphase : s.phase = .active) (filename : Text) :
    s.setFilename filename =
      .ok ⟨{ s with ledger := s.ledger.setFilename filename }, .filenameSet filename, none⟩ := by
  rw [setFilename, ensureActive_of_active hphase]
  rfl

theorem setLimit_eq (hphase : s.phase = .active) (limit : UInt64) :
    s.setLimit limit =
      (s.ledger.setLimit limit).map
        fun ledger => ⟨{ s with ledger }, .limitSet limit.toNat, none⟩ := by
  rw [setLimit, ensureActive_of_active hphase]
  rfl

/-- The operation that a call asks for, if it asks for any. -/
def Call.operation? : Call → Option Operation
  | .worry _ | .regret _ => some .report
  | .raise _ => some .raise
  | .expressConcerns => some .conclude
  | .setFilename _ => some .setFilename
  | .setLimit _ => some .setLimit
  | .concerns => none

/-- A session that has left the active phase refuses every operation and stays as it is. -/
theorem attempt_of_ne (hphase : s.phase ≠ .active) (call : Call) :
    s.attempt call =
      match call.operation? with
      | some operation => ⟨.error (.notActive operation s.ledger.filename s.phase), s, none⟩
      | none => ⟨.ok (.listed s.concerns), s, none⟩ := by
  cases call with
  | worry concern => rw [attempt, worry, report, ensureActive_of_ne hphase]; rfl
  | regret concern => rw [attempt, regret, report, ensureActive_of_ne hphase]; rfl
  | raise concern => rw [attempt, raise, ensureActive_of_ne hphase]; rfl
  | expressConcerns => rw [attempt, expressConcerns, ensureActive_of_ne hphase]; rfl
  | setFilename filename => rw [attempt, setFilename, ensureActive_of_ne hphase]; rfl
  | setLimit limit => rw [attempt, setLimit, ensureActive_of_ne hphase]; rfl
  | concerns => rfl

theorem session_attempt_of_ne (hphase : s.phase ≠ .active) (call : Call) :
    (s.attempt call).session = s := by
  rw [attempt_of_ne hphase]
  cases call.operation? <;> rfl

/-- An operation is carried out only while the session is active. -/
theorem active_of_accepted {call : Call} {reply : Reply} (hoperation : call.operation? ≠ none)
    (hreply : (s.attempt call).reply = .ok reply) : s.phase = .active := by
  by_cases hphase : s.phase = .active
  · exact hphase
  · rw [attempt_of_ne hphase] at hreply
    cases hcall : call.operation? with
    | none => exact absurd hcall hoperation
    | some operation =>
        rw [hcall] at hreply
        cases hreply

/-- Only the end of an active session is logged. -/
theorem dropEvent?_of_ne (hphase : s.phase ≠ .active) : s.dropEvent? = none :=
  if_neg fun hdrop => hphase hdrop.1

theorem run_append (s : Session) (first later : List Call) :
    s.run (first ++ later) = s.run first ++ (s.after first).run later := by
  induction first generalizing s with
  | nil => rfl
  | cons call first ih => exact congrArg (_ :: ·) (ih _)

theorem length_run (s : Session) (calls : List Call) : (s.run calls).length = calls.length := by
  induction calls generalizing s with
  | nil => rfl
  | cons call calls ih => exact congrArg (· + 1) (ih _)

theorem after_append (s : Session) (first later : List Call) :
    s.after (first ++ later) = (s.after first).after later :=
  List.foldl_append

end Session

end ParseReport
