import ParseReport.Text.Basic
import ParseReport.Text.Slice
import ParseReport.Text.Line
import ParseReport.Text.Numeral
import ParseReport.Position.Span
import ParseReport.Position.Ordinal
import ParseReport.Position.LineTable
import ParseReport.Position.LineScan
import ParseReport.Position.Location
import ParseReport.Position.Anchor
import ParseReport.Position.Cursor
import ParseReport.Position.Walk
import ParseReport.Severity
import ParseReport.Delimiter
import ParseReport.Problem
import ParseReport.Diagnostic
import ParseReport.Misuse
import ParseReport.Ledger.Action
import ParseReport.Ledger.Basic
import ParseReport.Ledger.Call
import ParseReport.Failure
import ParseReport.Log
import ParseReport.Session.Event
import ParseReport.Session.Basic
import ParseReport.Session.Call
import ParseReport.Display.Paint
import ParseReport.Display.Entry
import ParseReport.Display.Report
import ParseReport.Display.Terminal
import ParseReport.Check.Token
import ParseReport.Check.Event
import ParseReport.Check.Scan
import ParseReport.Check.Run
import ParseReport.CommandLine.Options
import ParseReport.CommandLine.Source
import ParseReport.CommandLine.Folder
import ParseReport.CommandLine.Run
import ParseReport.Main
import ParseReport.Proofs.LineStarts
import ParseReport.Proofs.Lookup
import ParseReport.Proofs.SessionStep
import ParseReport.Proofs.SessionHistory
import ParseReport.Proofs.Locate
import ParseReport.Proofs.Overflow
import ParseReport.Proofs.Excerpt
import ParseReport.Proofs.Findings
import ParseReport.Proofs.ScanActs
import ParseReport.Proofs.Truncation
import ParseReport.Proofs.SessionUse
import ParseReport.Proofs.Joining
import ParseReport.Proofs.LiteralContents
import ParseReport.Proofs.Brackets
import ParseReport.Proofs.Acceptance
import ParseReport.Proofs.Blame
import ParseReport.Proofs.Composition
import ParseReport.Proofs.Trace
import ParseReport.Proofs.Accounting
import ParseReport.Proofs.FaithfulLog
import ParseReport.Proofs.SessionInPlace
import ParseReport.Proofs.SessionMisuse
import ParseReport.Proofs.SessionLog
import ParseReport.Proofs.SessionSettings
import ParseReport.Proofs.Results
import ParseReport.Proofs.Anchors
import ParseReport.Proofs.PlainReports
import ParseReport.Proofs.ReportLines
import ParseReport.Proofs.ColoredReports
import ParseReport.Proofs.SplitReports
import ParseReport.Proofs.Marker
import ParseReport.Proofs.Detached
import ParseReport.Proofs.Arguments
import ParseReport.Proofs.CommandLineRuns
import ParseReport.Proofs.PositionOrder
import ParseReport.Proofs.Clipping
import ParseReport.Proofs.CharacterIndex
import ParseReport.Proofs.LineTexts
import ParseReport.Proofs.SlicedReading
import ParseReport.Proofs.ArgumentOrder
import ParseReport.Proofs.LedgerFullness
import ParseReport.Proofs.FailureSummaries
import ParseReport.Proofs.LineRanges
import ParseReport.Proofs.ForeignTables
import ParseReport.Proofs.Matches
import ParseReport.Proofs.Loops
import ParseReport.Proofs.ScanAdvance
import ParseReport.Proofs.UnassertedLedger
