import ParseReport.Display.Report

/-!
# Terminals

A terminal gets every entry with a blank line after it, and a failure's summary
as the last line, in the colour of its most serious part.
-/

namespace ParseReport

/-- When to use colours. -/
inductive ColorMode
  /-- On a terminal only. -/
  | auto
  | always
  | never
  deriving DecidableEq, Repr

/-- Whether to use colours on an output that is a terminal or not. -/
def ColorMode.resolve (mode : ColorMode) (isTerminal : Bool) : Bool :=
  match mode with
  | auto => isTerminal
  | always => true
  | never => false

namespace Display

/-- A line with its end. -/
def Line.writeLn (colored : Bool) (line : Line) : Text := line.write colored ++ ['\n']

/-- An entry on a terminal. -/
def Entry.emit (colored : Bool) (filename : Text) (e : Entry) : Text :=
  (e.lines filename).flatMap (Line.writeLn colored) ++ ['\n']

/-- Entries on a terminal. -/
def emitAll (colored : Bool) (filename : Text) (entries : List Entry) : Text :=
  entries.flatMap (Entry.emit colored filename)

end Display

open Display

/-- The diagnostic on a terminal. -/
def Diagnostic.emit (d : Diagnostic) (colored : Bool) (filename : Text) : Except Fault Text :=
  d.entry.map (Entry.emit colored filename)

/-- The diagnostics on a terminal. -/
def Diagnostic.emitAll (diagnostics : List Diagnostic) (colored : Bool) (filename : Text) :
    Except Fault Text :=
  (diagnostics.mapM Diagnostic.entry).map (Display.emitAll colored filename)

namespace Failure

/-- The severity in whose colour the summary stands. -/
def summarySeverity (f : Failure) : Severity :=
  match f.cause with
  | .panic => .panic
  | .limitExceeded _ | .concerns => if 0 < f.count .regret then .regret else .worry

/-- The summary on a terminal. -/
def emitSummary (f : Failure) (colored : Bool) : Text :=
  Line.writeLn colored [painted (.severity f.summarySeverity) f.summary]

/-- The failure on a terminal: its diagnostics, then its summary. -/
def emit (f : Failure) (colored : Bool) : Except Fault Text :=
  (Diagnostic.emitAll f.diagnostics colored f.filename).map (· ++ f.emitSummary colored)

end Failure

end ParseReport
