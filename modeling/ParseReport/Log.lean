import ParseReport.Text.Basic

/-!
# Log records

The form in which an event is written to a log: a level, a fixed message and
named fields.
-/

namespace ParseReport.Log

inductive Level
  | trace
  | debug
  | warn
  deriving DecidableEq, Repr

inductive Value
  | text (text : Text)
  | number (number : Nat)
  deriving DecidableEq, Repr

structure Record where
  level : Level
  message : Text
  fields : List (Text × Value)
  deriving DecidableEq, Repr

/-- A field that holds a text. -/
def textField (name : String) (text : Text) : Text × Value := (name.toList, .text text)

/-- A field that holds a number. -/
def numberField (name : String) (number : Nat) : Text × Value := (name.toList, .number number)

end ParseReport.Log
