import ParseReport.Check.Run
import ParseReport.CommandLine.Options
import ParseReport.CommandLine.Source

/-!
# Runs of the command line

A run has the exit code 2 when its arguments are not in order, 0 when the file
is accepted and 1 otherwise. An accepted file is named on the standard output;
everything else goes to the standard error.
-/

namespace ParseReport.CommandLine

/-- What a run leaves behind. -/
structure Outcome where
  code : Nat
  stdout : Text
  stderr : Text
  deriving DecidableEq, Repr

/-- How to call the program. -/
def usage : Text :=
  ("Usage: fret-check <file> [options]\n" ++
    "\n" ++
    "Options:\n" ++
    "  --limit=<n>                    Stop after n worries and sorries (default: 10)\n" ++
    "  --color=<auto|always|never>    Colored output (default: auto)\n").toList

/-- A line that tells of an error. -/
def errorLine (message : Text) : Text := "error: ".toList ++ message ++ "\n".toList

/-- The run of a command line that is not in order. -/
def refuse (error : OptionsError) : Outcome := ⟨2, [], errorLine error.message ++ usage⟩

/-- The run of a check that found nothing. -/
def accept (options : Options) (summary : Check.Summary) : Outcome :=
  ⟨0, options.path ++ ": ok (".toList ++ Text.decimal summary.pairs
    ++ " delimiter pairs, ".toList ++ Text.decimal summary.lines ++ " lines)\n".toList, []⟩

/-- The run of a check that did not succeed. A failure is shown on the terminal, any other error in
one line. -/
def explain (options : Options) (isTerminal : Bool) (error : Check.Error) :
    Except Fault Outcome :=
  match error with
  | .reported failure =>
    (failure.emit (options.color.resolve isTerminal)).map (⟨1, [], ·⟩)
  | error => error.message.map (⟨1, [], errorLine ·⟩)

/-- The run that checks a file, given what reading it came to. -/
def conclude (options : Options) (isTerminal : Bool) (source : Except ReadError Text) :
    Except Check.Breach Outcome :=
  match source with
  | .error reason =>
    (explain options isTerminal (.unreadable options.path reason.message)).mapError .fault
  | .ok text => do
    match (← check text options.config).result with
    | .ok summary => return accept options summary
    | .error error => (explain options isTerminal error).mapError .fault

/-- A whole run, where `read` reads a file and the standard error may be a terminal. -/
def run (arguments : List Text) (isTerminal : Bool) (read : Text → Except ReadError Text) :
    Except Check.Breach Outcome :=
  match Options.parse arguments with
  | .error error => .ok (refuse error)
  | .ok options => conclude options isTerminal (read options.path)

end ParseReport.CommandLine
