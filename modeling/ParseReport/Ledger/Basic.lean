import ParseReport.Misuse
import ParseReport.Diagnostic
import ParseReport.Ledger.Action

/-!
# Ledgers

A ledger holds worries and regrets in the order in which they were reported. It
goes on recording past its limit; acting on a full ledger is up to its owner.
-/

namespace ParseReport

/-- The default number of diagnostics at which a session escalates. -/
def defaultLimit : UInt64 := 10

/-- The name of a text whose file is not known. -/
def unspecifiedFile : Text := "<unspecified file>".toList

/-- Diagnostics not yet surfaced, oldest first. -/
structure Ledger where
  buffered : Array Diagnostic
  limit : UInt64
  filename : Text
  limit_ne_zero : limit ≠ 0
  deriving DecidableEq, Repr

namespace Ledger

instance : Inhabited Ledger := ⟨#[], defaultLimit, unspecifiedFile, by decide⟩

/-- A ledger with nothing in it. -/
def create (filename : Text) (limit : UInt64) : Except Misuse Ledger :=
  if h : limit = 0 then .error .zeroLimit else .ok ⟨#[], limit, filename, h⟩

def toList (l : Ledger) : List Diagnostic := l.buffered.toList

def size (l : Ledger) : Nat := l.buffered.size

def isEmpty (l : Ledger) : Bool := l.buffered.isEmpty

def isFull (l : Ledger) : Bool := l.limit.toNat ≤ l.size

/-- Stores a diagnostic. The action is worked out before it is stored. This is the ledger of a debug
build, which asserts that no panic comes here and refuses one; `store` is without the assertion. -/
def record (l : Ledger) (d : Diagnostic) : Except Misuse (Action × Ledger) :=
  match Action.classify l.size l.limit d.severity with
  | .raiseImmediately => .error .panicRecorded
  | action => .ok (action, { l with buffered := l.buffered.push d })

/-- Takes everything out, in order. -/
def drain (l : Ledger) : List Diagnostic × Ledger := (l.toList, { l with buffered := #[] })

def setFilename (l : Ledger) (filename : Text) : Ledger := { l with filename }

/-- Changes the limit, which must stay above the number of stored diagnostics. -/
def setLimit (l : Ledger) (limit : UInt64) : Except Misuse Ledger :=
  if h : limit = 0 then .error .zeroLimit
  else if limit.toNat ≤ l.size then .error (.limitNotAbove limit.toNat l.size)
  else .ok { l with limit, limit_ne_zero := h }

theorem size_eq_length (l : Ledger) : l.size = l.toList.length := rfl

theorem toList_create {filename : Text} {limit : UInt64} {l : Ledger}
    (h : create filename limit = .ok l) : l.toList = [] := by
  unfold create at h
  split at h
  · simp at h
  · cases h; rfl

@[simp] theorem toList_drain (l : Ledger) : l.drain.2.toList = [] := rfl

end Ledger

end ParseReport
