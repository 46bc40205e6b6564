import ParseReport.Ledger.Call
import ParseReport.Proofs.SessionInPlace

/-!
# The history of a ledger

What the drains of a ledger gave out, followed by what it still holds, is what was handed in to be
held, in order. No call can break this equation, not one that is refused, nor one on a ledger that
is full or holds more than its limit. A call that is refused changes nothing, even where the ledger
is changed in place.
-/

namespace ParseReport.Ledger

/-- The ledger after the calls, refused ones included. -/
def after (l : Ledger) (calls : List Call) : Ledger :=
  calls.foldl (fun l call => (l.attempt call).2) l

/-- A call and the answer to it. -/
structure Exchange where
  call : Call
  reply : Except Misuse Reply

/-- The exchange that a call on a ledger makes. -/
def exchange (l : Ledger) (call : Call) : Exchange := ⟨call, (l.attempt call).1⟩

/-- The exchanges of a run. -/
def transcript : Ledger → List Call → List Exchange
  | _, [] => []
  | l, call :: calls => l.exchange call :: (l.attempt call).2.transcript calls

/-- What a drain gave out. -/
def Exchange.drained (x : Exchange) : List Diagnostic :=
  match x.call, x.reply with
  | .drain, .ok (.listed diagnostics) => diagnostics
  | _, _ => []

/-- All that drains gave out, in order. -/
def drained (done : List Exchange) : List Diagnostic := done.flatMap Exchange.drained

/-- The diagnostic that a call hands in to be held: of any severity but a panic. -/
def Call.report? : Call → Option Diagnostic
  | .record d => if d.severity = .panic then none else some d
  | _ => none

/-- The worries and regrets handed in by the calls, in order. -/
def recorded (calls : List Call) : List Diagnostic := calls.filterMap Call.report?

section Runs
variable (l : Ledger)

theorem replies_transcript (calls : List Call) :
    (l.transcript calls).map (·.reply) = (l.run calls).map (·.1) := by
  induction calls generalizing l with
  | nil => rfl
  | cons call calls ih => exact congrArg (_ :: ·) (ih _)

theorem after_append (first later : List Call) :
    l.after (first ++ later) = (l.after first).after later :=
  List.foldl_append

theorem transcript_append (first later : List Call) :
    l.transcript (first ++ later) =
      l.transcript first ++ (l.after first).transcript later := by
  induction first generalizing l with
  | nil => rfl
  | cons call first ih => exact congrArg (_ :: ·) (ih _)

end Runs

section Attempts
variable {l : Ledger}

theorem create_eq (filename : Text) {limit : UInt64} (hlimit : limit ≠ 0) :
    create filename limit = .ok ⟨#[], limit, filename, hlimit⟩ :=
  dif_neg hlimit

theorem record_of_panic {d : Diagnostic} (hseverity : d.severity = .panic) :
    l.record d = .error .panicRecorded := by
  rw [record, Action.classify_eq_raiseImmediately_iff.mpr hseverity]

theorem attempt_record_of_panic {d : Diagnostic} (hseverity : d.severity = .panic) :
    l.attempt (.record d) = (.error .panicRecorded, l) := by
  rw [attempt, perform, record_of_panic hseverity]
  rfl

theorem attempt_record {d : Diagnostic} (hseverity : d.severity ≠ .panic) :
    l.attempt (.record d) =
      (.ok (.recorded (if l.limit.toNat ≤ l.size + 1 then .bufferThenEscalate else .buffer)),
        l.add d) := by
  rw [attempt, perform, record_eq l hseverity]
  rfl

/-- A change of the limit is refused, or was asked for one above the number of diagnostics. -/
theorem attempt_setLimit_cases (l : Ledger) (limit : UInt64) :
    (∃ misuse, l.attempt (.setLimit limit) = (.error misuse, l)) ∨
      ∃ l', l.attempt (.setLimit limit) = (.ok .done, l') ∧ l'.size < l'.limit.toNat ∧
        l'.toList = l.toList := by
  rw [attempt, perform]
  rcases l.setLimit_cases limit with ⟨misuse, hset⟩ | ⟨l', hset, hroom, hlist, -, hlimit⟩
  · rw [hset]
    exact .inl ⟨misuse, rfl⟩
  · rw [hset]
    refine .inr ⟨l', rfl, ?_, hlist⟩
    rw [size_eq_length, hlist, hlimit]
    exact hroom

/-- A call gives out or keeps what was held, and keeps what it hands in. -/
theorem drained_attempt (l : Ledger) (call : Call) :
    (l.exchange call).drained ++ (l.attempt call).2.toList = l.toList ++ call.report?.toList := by
  cases call with
  | record d =>
      by_cases hseverity : d.severity = .panic
      · rw [exchange, attempt_record_of_panic hseverity, Call.report?, if_pos hseverity]
        exact (List.append_nil _).symm
      · rw [exchange, attempt_record hseverity, Call.report?, if_neg hseverity]
        exact l.toList_add d
  | drain => rfl
  | list => exact (List.append_nil _).symm
  | setFilename filename => exact (List.append_nil _).symm
  | setLimit limit =>
      rw [exchange]
      rcases l.attempt_setLimit_cases limit with ⟨misuse, hrefused⟩ | ⟨l', haccepted, -, hlist⟩
      · rw [hrefused]
        exact (List.append_nil _).symm
      · rw [haccepted]
        exact hlist.trans (List.append_nil _).symm

/-- What the drains gave out, followed by what is held in the end, is what was held at the start,
followed by what was handed in. -/
theorem drained_append_toList (l : Ledger) (calls : List Call) :
    drained (l.transcript calls) ++ (l.after calls).toList = l.toList ++ recorded calls := by
  induction calls generalizing l with
  | nil => exact (List.append_nil _).symm
  | cons call calls ih =>
      have hrecorded : recorded (call :: calls) = call.report?.toList ++ recorded calls := by
        cases hreport : call.report? <;> simp [recorded, hreport]
      rw [hrecorded, ← List.append_assoc, ← drained_attempt, List.append_assoc, ← ih]
      exact List.append_assoc _ _ _

theorem severity_ne_of_mem_recorded {calls : List Call} {d : Diagnostic}
    (hd : d ∈ recorded calls) : d.severity ≠ .panic := by
  obtain ⟨call, -, hreport⟩ := List.mem_filterMap.mp hd
  cases call with
  | record d' =>
      obtain ⟨hseverity, hsame⟩ := Option.ite_none_left_eq_some.mp hreport
      obtain rfl := Option.some.inj hsame
      exact hseverity
  | _ => cases hreport

end Attempts

section Changes
open Session

/-- Carries out one call, change by change, on the ledger of a session. -/
def Call.work : Call → InPlace Reply
  | .record d => do return .recorded (← InPlace.record d)
  | .drain => do return .listed (← InPlace.drain)
  | .list => do return .listed (← InPlace.ledger).toList
  | .setFilename filename => do
    InPlace.setLedger ((← InPlace.ledger).setFilename filename)
    return .done
  | .setLimit limit => do
    InPlace.changeLimit limit
    return .done

/-- The answer to a call that changes the ledger in place, and what it leaves of the ledger. No
operation of a ledger looks at anything else of a session. -/
def attemptInPlace (l : Ledger) (call : Call) : Except Misuse Reply × Ledger :=
  match call.work.run ⟨⟨l, .active⟩, []⟩ with
  | .ok reply live => (.ok reply, live.session.ledger)
  | .error misuse live => (.error misuse, live.session.ledger)

theorem run_record_of_panic {d : Diagnostic} (hseverity : d.severity = .panic) (live : Live) :
    (InPlace.record d).run live = .error .panicRecorded live := by
  rw [InPlace.record, if_pos (Severity.isBufferable_eq_false_iff.mpr hseverity)]
  rfl

theorem attemptInPlace_eq (l : Ledger) (call : Call) : l.attemptInPlace call = l.attempt call := by
  cases call with
  | record d =>
      rw [attemptInPlace, Call.work]
      by_cases hseverity : d.severity = .panic
      · rw [attempt_record_of_panic hseverity,
          InPlace.run_bind_of_error (run_record_of_panic hseverity _)]
      · rw [attempt_record hseverity, InPlace.run_bind_of_ok (InPlace.run_record hseverity)]
        rfl
  | drain => rfl
  | list => rfl
  | setFilename filename => rfl
  | setLimit limit =>
      rw [attemptInPlace, Call.work, attempt, perform, InPlace.run_bind, InPlace.run_changeLimit]
      cases l.setLimit limit <;> rfl

end Changes

theorem eq_of_refused {l : Ledger} {call : Call} {misuse : Misuse}
    (h : (l.attempt call).1 = .error misuse) : (l.attempt call).2 = l := by
  unfold attempt at h ⊢
  cases hperform : l.perform call with
  | error misuse' => rfl
  | ok outcome =>
      rw [hperform] at h
      cases h

/-- After any calls, refused ones included, what the drains gave out and then what is held is
exactly what was handed in, in order, and no panic is among it. A panic is refused like any other
misuse, and a refused call leaves the ledger as it was, also where it changes the ledger in place.
To look at a ledger shows what draining it gives out. -/
theorem drained_then_held_eq_recorded (filename : Text) {limit : UInt64} (hlimit : limit ≠ 0)
    (calls : List Call) :
    ∃ l, create filename limit = .ok l ∧
      let held := l.after calls
      drained (l.transcript calls) ++ held.toList = recorded calls ∧
      (∀ d ∈ held.toList, d.severity ≠ .panic) ∧
      (∀ d, d.severity = .panic → held.attempt (.record d) = (.error .panicRecorded, held)) ∧
      (∀ call, held.attemptInPlace call = held.attempt call ∧
        ∀ misuse, (held.attemptInPlace call).1 = .error misuse →
          (held.attemptInPlace call).2 = held) ∧
      held.attempt .list = (.ok (.listed held.toList), held) ∧
      (held.attempt .drain).1 = .ok (.listed held.toList) := by
  refine ⟨_, create_eq filename hlimit, ?_⟩
  intro held
  have hhistory : drained _ ++ held.toList = recorded calls := drained_append_toList _ calls
  refine ⟨hhistory, ?_, fun d => attempt_record_of_panic, ?_, rfl, rfl⟩
  · intro d hd
    have hrecorded : d ∈ recorded calls := by
      rw [← hhistory]
      exact List.mem_append_right _ hd
    exact severity_ne_of_mem_recorded hrecorded
  · intro call
    rw [attemptInPlace_eq]
    exact ⟨rfl, fun misuse => eq_of_refused⟩

/-- Three reports where two are the limit, a limit of three and a panic that are refused, then a
drain and one more report. -/
theorem drained_then_held_past_limit :
    let about (c : Char) (severity : Severity) : Diagnostic := ⟨⟨.adHoc [c], none, none⟩, severity⟩
    let calls : List Call :=
      [.record (about 'a' .worry), .record (about 'b' .regret), .record (about 'c' .worry),
        .setLimit 3, .record (about 'p' .panic), .drain, .setLimit 1, .record (about 'd' .regret)]
    (2 : UInt64) ≠ 0 ∧ ∃ l, create ['f'] 2 = .ok l ∧
      drained (l.transcript calls) = [about 'a' .worry, about 'b' .regret, about 'c' .worry] ∧
      (l.after calls).toList = [about 'd' .regret] ∧
      drained (l.transcript calls) ++ (l.after calls).toList = recorded calls ∧
      (l.after calls).attemptInPlace (.setLimit 1) =
        (.error (.limitNotAbove 1 1), l.after calls) := by
  intro about calls
  have hlimit : (2 : UInt64) ≠ 0 := by decide
  obtain ⟨l, hl, hhistory, -, -, hplace, -⟩ := drained_then_held_eq_recorded ['f'] hlimit calls
  refine ⟨hlimit, l, hl, ?_, ?_, hhistory, ?_⟩
  · cases hl
    rfl
  · cases hl
    rfl
  · rw [(hplace (.setLimit 1)).1]
    cases hl
    rfl

end ParseReport.Ledger
