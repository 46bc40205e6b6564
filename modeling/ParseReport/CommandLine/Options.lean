import ParseReport.Display.Terminal
import ParseReport.Session.Basic

/-!
# Options

A command line names one file and may set the limit and the colours, in any
order. Of several settings of one kind the last one counts; the first argument
that is not in order makes the whole command line invalid.
-/

namespace ParseReport

/-- What a command line asks for. -/
structure Options where
  path : Text
  limit : UInt64
  color : ColorMode
  deriving DecidableEq, Repr

/-- What is wrong with a command line. -/
inductive OptionsError
  | missingPath
  | unexpectedArgument (argument : Text)
  | unknownOption (argument : Text)
  | invalidLimit (value : Text)
  | invalidColor (value : Text)
  deriving DecidableEq, Repr

def OptionsError.message : OptionsError → Text
  | missingPath => "missing file path".toList
  | unexpectedArgument argument => "unexpected argument `".toList ++ argument ++ "`".toList
  | unknownOption argument => "unknown option `".toList ++ argument ++ "`".toList
  | invalidLimit value =>
    "invalid limit `".toList ++ value ++ "`: expected a positive integer".toList
  | invalidColor value =>
    "invalid color mode `".toList ++ value ++ "`: expected auto, always, or never".toList

namespace Options

/-- One argument by its form. -/
inductive Argument
  | limit (value : Text)
  | color (value : Text)
  | unknown (argument : Text)
  | path (path : Text)
  deriving DecidableEq, Repr

/-- What begins with a dash is an option; all else is a path, also the empty text. -/
def Argument.ofText (t : Text) : Argument :=
  match "--limit=".toList.isPrefixOf? t, "--color=".toList.isPrefixOf? t with
  | some value, _ => .limit value
  | none, some value => .color value
  | none, none => if t.head? = some '-' then .unknown t else .path t

/-- A limit is a positive count of at most 64 bits. -/
def limit? (value : Text) : Option UInt64 :=
  match value.count? (maxCount + 1) with
  | none | some 0 => none
  | some n => some n.toUInt64

def color? (value : Text) : Option ColorMode :=
  if value = "auto".toList then some .auto
  else if value = "always".toList then some .always
  else if value = "never".toList then some .never
  else none

/-- What the arguments read so far have set. -/
structure Draft where
  path : Option Text := none
  limit : UInt64 := defaultLimit
  color : ColorMode := .auto
  deriving DecidableEq, Repr

/-- Takes one more argument. -/
def Draft.take (d : Draft) (argument : Text) : Except OptionsError Draft :=
  match Argument.ofText argument with
  | .limit value =>
    match limit? value with
    | some limit => .ok { d with limit }
    | none => .error (.invalidLimit value)
  | .color value =>
    match color? value with
    | some color => .ok { d with color }
    | none => .error (.invalidColor value)
  | .unknown argument => .error (.unknownOption argument)
  | .path path =>
    match d.path with
    | none => .ok { d with path := some path }
    | some _ => .error (.unexpectedArgument path)

/-- Reads a command line, without the name of the program. -/
def parse (arguments : List Text) : Except OptionsError Options := do
  let d ← arguments.foldlM Draft.take {}
  match d.path with
  | some path => return ⟨path, d.limit, d.color⟩
  | none => throw .missingPath

/-- The session that the options ask for. -/
def config (o : Options) : Config := ⟨o.path, o.limit⟩

end Options

end ParseReport
