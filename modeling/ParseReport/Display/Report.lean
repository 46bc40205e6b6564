import ParseReport.Failure
import ParseReport.Display.Entry

/-!
# Plain reports

A report shows entries in order with a blank line between two of them. Plain
text has no line end after its last line.
-/

namespace ParseReport

namespace Display

/-- Lines as plain text. -/
def plainText (lines : List Line) : Text :=
  List.intercalate ['\n'] (lines.map (Line.write false))

/-- One entry as plain text. -/
def Entry.render (e : Entry) (filename : Text) : Text := plainText (e.lines filename)

/-- The lines of a report. -/
def reportLines (filename : Text) (entries : List Entry) : List Line :=
  List.intercalate [[]] (entries.map (·.lines filename))

/-- A report as plain text. -/
def renderReport (filename : Text) (entries : List Entry) : Text :=
  plainText (reportLines filename entries)

end Display

/-- The diagnostic as plain text. -/
def Diagnostic.render (d : Diagnostic) (filename : Text) : Except Fault Text :=
  d.entry.map (·.render filename)

/-- The diagnostics as plain text. -/
def Diagnostic.renderAll (diagnostics : List Diagnostic) (filename : Text) : Except Fault Text :=
  (diagnostics.mapM Diagnostic.entry).map (Display.renderReport filename)

namespace Failure

/-- The report of the failure as plain text. -/
def render (f : Failure) : Except Fault Text := Diagnostic.renderAll f.diagnostics f.filename

/-- How many diagnostics of each severity there are, the most serious first. -/
def counts (f : Failure) : List (Severity × Nat) :=
  [.panic, .regret, .worry].map fun severity => (severity, f.count severity)

/-- The one line that sums the failure up. -/
def summary (f : Failure) : Text :=
  let present := f.counts.filter (0 < ·.2)
  let listed := present.map fun (severity, count) => severity.counted count
  "aborting due to ".toList ++ List.intercalate ", ".toList listed ++ " in ".toList ++ f.filename ++
    match f.cause with
    | .limitExceeded limit =>
      " (stopped at the limit of ".toList ++ Text.decimal limit ++ ")".toList
    | _ => []

end Failure

end ParseReport
