import ParseReport.Severity
import ParseReport.Problem
import ParseReport.Position.Anchor

/-!
# Diagnostics

A parser reports a concern: a problem with, at will, advice of its own and an
anchor. With a severity it becomes a diagnostic.
-/

namespace ParseReport

/-- What a parser reports. -/
structure Concern where
  problem : Problem
  /-- Advice that goes before the problem's own. -/
  advice : Option Text
  anchor : Option Anchor
  deriving DecidableEq, Repr

namespace Concern

/-- A concern about a problem at a known place. -/
def about (problem : Problem) (anchor : Anchor) : Concern := ⟨problem, none, some anchor⟩

end Concern

/-- A concern with its severity. -/
structure Diagnostic extends Concern where
  severity : Severity
  deriving DecidableEq, Repr

namespace Diagnostic

def kind (d : Diagnostic) : Text := d.problem.kind

def message (d : Diagnostic) : Text := d.problem.message

/-- The advice given with the concern, else the hint of the problem. -/
def hint (d : Diagnostic) : Option Text := d.advice <|> d.problem.hint

/-- Where the diagnostic points, if it has an anchor. -/
def location (d : Diagnostic) : Except Fault (Option Location) := d.anchor.mapM Anchor.locate

/-- The same diagnostic without the parsed text. -/
def detach (d : Diagnostic) : Except Fault Diagnostic := do
  return { d with anchor := ← d.anchor.mapM Anchor.detach }

end Diagnostic

end ParseReport
