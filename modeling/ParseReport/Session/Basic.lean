import ParseReport.Failure
import ParseReport.Ledger.Basic
import ParseReport.Session.Event

/-!
# Reporting sessions

A session takes the reports of one parse. It is active until it fails by a panic
or by reaching the limit, or until the parser has it express its concerns; after
that it refuses every call that would change it.
-/

namespace ParseReport

/-- How a session starts out. -/
structure Config where
  filename : Text := unspecifiedFile
  /-- Buffered diagnostics at which the session escalates. -/
  limit : UInt64 := defaultLimit
  deriving DecidableEq, Repr

/-- The reports of one parse. -/
structure Session where
  ledger : Ledger
  phase : Phase
  deriving DecidableEq, Repr

namespace Session

instance : Inhabited Session := ⟨default, .active⟩

/-- A new session, unless the limit is zero. -/
def ofConfig (config : Config) : Except Misuse Session :=
  (Ledger.create config.filename config.limit).map (⟨·, .active⟩)

/-- The buffered diagnostics, oldest first. -/
def concerns (s : Session) : List Diagnostic := s.ledger.toList

/-- An accepted call: the session after it, its log event, and the failure it may bring. -/
structure Outcome where
  session : Session
  event : Event
  failure : Option Failure
  deriving DecidableEq, Repr

/-- Refuses an operation on a session that is no longer active. -/
def ensureActive (s : Session) (operation : Operation) : Except Misuse Unit :=
  if s.phase = .active then .ok ()
  else .error (.notActive operation s.ledger.filename s.phase)

/-- Buffers a concern. The one that reaches the limit fails the session with all of them. -/
def report (s : Session) (severity : Severity) (concern : Concern) : Except Misuse Outcome := do
  s.ensureActive .report
  let d : Diagnostic := ⟨concern, severity⟩
  match ← s.ledger.record d with
  | (.buffer, ledger) =>
    return ⟨{ s with ledger }, .buffered severity d.kind ledger.size, none⟩
  | (.bufferThenEscalate, ledger) =>
    let (diagnostics, drained) := ledger.drain
    let limit := ledger.limit.toNat
    return ⟨⟨drained, .escalated⟩,
      .limitReached severity d.kind limit diagnostics.length ledger.filename,
      some ⟨ledger.filename, diagnostics, .limitExceeded limit⟩⟩
  | (.raiseImmediately, _) => throw .panicRecorded

/-- Reports a problem that leaves the parse unaffected. -/
def worry (s : Session) (concern : Concern) : Except Misuse Outcome := s.report .worry concern

/-- Reports a problem that makes the result of the parse wrong. -/
def regret (s : Session) (concern : Concern) : Except Misuse Outcome := s.report .regret concern

/-- Stops the parse. What is buffered is thrown away. -/
def raise (s : Session) (concern : Concern) : Except Misuse Outcome := do
  s.ensureActive .raise
  let d : Diagnostic := ⟨concern, .panic⟩
  let (discarded, ledger) := s.ledger.drain
  return ⟨⟨ledger, .raised⟩, .panicRaised d.kind discarded.length ledger.filename,
    some ⟨ledger.filename, [d], .panic⟩⟩

/-- Ends the parse, which fails with what is buffered, if anything is. -/
def expressConcerns (s : Session) : Except Misuse Outcome := do
  s.ensureActive .conclude
  let (diagnostics, ledger) := s.ledger.drain
  let filename := ledger.filename
  if s.ledger.isEmpty then
    return ⟨⟨ledger, .concluded⟩, .concludedCleanly filename, none⟩
  else
    return ⟨⟨ledger, .concluded⟩, .concludedWithConcerns diagnostics.length filename,
      some ⟨filename, diagnostics, .concerns⟩⟩

def setFilename (s : Session) (filename : Text) : Except Misuse Outcome := do
  s.ensureActive .setFilename
  return ⟨{ s with ledger := s.ledger.setFilename filename }, .filenameSet filename, none⟩

def setLimit (s : Session) (limit : UInt64) : Except Misuse Outcome := do
  s.ensureActive .setLimit
  let ledger ← s.ledger.setLimit limit
  return ⟨{ s with ledger }, .limitSet limit.toNat, none⟩

/-- What is logged when the session goes out of use. -/
def dropEvent? (s : Session) : Option Event :=
  if s.phase = .active ∧ ¬s.ledger.isEmpty then
    some (.dropped s.ledger.size s.ledger.filename)
  else
    none

end Session

end ParseReport
