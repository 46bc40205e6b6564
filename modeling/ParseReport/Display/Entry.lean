import ParseReport.Diagnostic
import ParseReport.Display.Paint

/-!
# Entries of a report

An entry is what a report shows of one diagnostic. Its lines are:

```text
sorry[extra-paren]: unexpected closing `)`
  hint: remove it, or add a matching `(` before it
 --> input.txt:3:9
  |
3 | foo(bar))
  |         ^
```

The hint line is left out without a hint. Without a location a line with the
bare filename takes the place of the last four.
-/

namespace ParseReport

namespace Display

/-- What a report shows of a diagnostic. -/
structure Entry where
  severity : Severity
  kind : Text
  message : Text
  hint : Option Text
  location : Option Location
  deriving DecidableEq, Repr

namespace Entry

/-- Severity, kind and message. -/
def heading (e : Entry) : Line :=
  [painted (.severity e.severity) e.severity.label,
    painted .bold ("[".toList ++ e.kind ++ "]".toList),
    plain (": ".toList ++ e.message)]

/-- The line of a hint. -/
def hintLine (hint : Text) : Line :=
  [plain "  ".toList, painted .hint "hint".toList, plain (": ".toList ++ hint)]

/-- Where the diagnostic is to be found when only the file is known. -/
def fileLine (filename : Text) : Line :=
  [plain "  ".toList, painted .gutter "-->".toList, plain (" ".toList ++ filename)]

/-- Blanks below the first `columns` characters of a line. Tabs stay, so that what follows lines
up. -/
def margin (excerpt : Text) (columns : Nat) : Text :=
  (excerpt.take columns).map (fun c => if c = '\t' then '\t' else ' ')
    ++ List.replicate (columns - excerpt.length) ' '

/-- Position, excerpt and marker. -/
def locationLines (filename : Text) (severity : Severity) (l : Location) : List Line :=
  let number := Text.decimal l.line
  let pad := List.replicate number.length ' '
  let bar := painted .gutter "|".toList
  [[plain pad, painted .gutter "-->".toList,
      plain (" ".toList ++ filename ++ ":".toList ++ number ++ ":".toList
        ++ Text.decimal l.column)],
    [plain (pad ++ " ".toList), bar],
    [painted .gutter (number ++ " |".toList),
      plain (if l.excerpt = [] then [] else " ".toList ++ l.excerpt)],
    [plain (pad ++ " ".toList), bar,
      plain (" ".toList ++ margin l.excerpt (l.column - 1)),
      painted (.severity severity) (List.replicate l.width '^')]]

/-- The lines of the entry. -/
def lines (e : Entry) (filename : Text) : List Line :=
  e.heading :: e.hint.toList.map hintLine ++
    match e.location with
    | none => [fileLine filename]
    | some l => locationLines filename e.severity l

theorem lines_ne_nil (e : Entry) (filename : Text) : e.lines filename ≠ [] := by
  simp [lines]

end Entry

end Display

/-- What a report shows of the diagnostic. -/
def Diagnostic.entry (d : Diagnostic) : Except Fault Display.Entry := do
  return ⟨d.severity, d.kind, d.message, d.hint, ← d.location⟩

end ParseReport
