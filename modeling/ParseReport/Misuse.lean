import ParseReport.Text.Numeral

/-!
# Misuse

A call that a session or a ledger refuses is a mistake of the parser, not of its
input. A refused call changes nothing.
-/

namespace ParseReport

/-- Where a session is in its life. -/
inductive Phase
  /-- Takes reports. -/
  | active
  /-- Failed because the buffer reached its limit. -/
  | escalated
  /-- Failed because of a panic. -/
  | raised
  /-- Finished. -/
  | concluded
  deriving DecidableEq, Repr

def Phase.label : Phase → Text
  | active => "active".toList
  | escalated => "escalated".toList
  | raised => "raised".toList
  | concluded => "concluded".toList

/-- What a session is asked to do while it is active. -/
inductive Operation
  | report
  | raise
  | conclude
  | setFilename
  | setLimit
  deriving DecidableEq, Repr

def Operation.phrase : Operation → Text
  | report => "report a concern".toList
  | raise => "raise a panic".toList
  | conclude => "express concerns".toList
  | setFilename => "set the filename".toList
  | setLimit => "set the limit".toList

/-- Why a call was refused. -/
inductive Misuse
  | zeroLimit
  | limitNotAbove (limit buffered : Nat)
  | panicRecorded
  | notActive (operation : Operation) (filename : Text) (phase : Phase)
  deriving DecidableEq, Repr

def Misuse.message : Misuse → Text
  | zeroLimit => "diagnostic limit must be positive".toList
  | limitNotAbove limit buffered =>
    "diagnostic limit ".toList ++ Text.decimal limit ++ " must exceed the ".toList
      ++ Text.decimal buffered ++ " already buffered".toList
  | panicRecorded => "a panic diagnostic cannot be recorded in a ledger".toList
  | notActive operation filename phase =>
    "cannot ".toList ++ operation.phrase ++ ": reporting session for ".toList ++ filename
      ++ " is already ".toList ++ phase.label

end ParseReport
