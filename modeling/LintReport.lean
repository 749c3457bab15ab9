import LintReport.Command.Arguments
import LintReport.Command.Choice
import LintReport.Command.Console
import LintReport.Command.Failure
import LintReport.Command.Help
import LintReport.Command.Options
import LintReport.Command.Path
import LintReport.Command.Process
import LintReport.Command.Run
import LintReport.Finding
import LintReport.Finding.Reading
import LintReport.Json.Decode
import LintReport.Json.Fault
import LintReport.Json.Literal
import LintReport.Json.Token
import LintReport.Json.Value
import LintReport.Log.Event
import LintReport.Log.Level
import LintReport.Log.Logger
import LintReport.Main
import LintReport.Number.Binary64
import LintReport.Number.Shortest
import LintReport.Report
import LintReport.Report.Merge
import LintReport.Report.Run
import LintReport.Report.Section
import LintReport.Report.Split
import LintReport.Report.Summary
import LintReport.Table
import LintReport.Terminal.Sequence
import LintReport.Terminal.Style
import LintReport.Text.Basic
import LintReport.Text.Blank
import LintReport.Text.Case
import LintReport.Text.Digit
import LintReport.Text.Newline
import LintReport.Text.Numeral
import LintReport.Text.Printable
import LintReport.Text.Quoted
import LintReport.Text.Range
import LintReport.Text.Similarity
import LintReport.Text.Substitute
import LintReport.Text.Utf8
import LintReport.Proofs.Report.Layout
import LintReport.Proofs.Report.Printing
import LintReport.Proofs.Report.Tally
import LintReport.Proofs.Terminal.Paint
import LintReport.Proofs.Report.Place
import LintReport.Proofs.Report.Coloring
import LintReport.Proofs.Command.Requests
import LintReport.Proofs.Command.Coloring
import LintReport.Proofs.Json.Integers
import LintReport.Proofs.Command.Status
import LintReport.Proofs.Report.Policies
import LintReport.Proofs.Report.Filtering
import LintReport.Proofs.Report.Suppression
import LintReport.Proofs.Number.Binary64
import LintReport.Proofs.Json.Numbers
import LintReport.Proofs.Report.Limits
import LintReport.Proofs.Json.Members
import LintReport.Proofs.Report.Halves
import LintReport.Proofs.Finding.Writing
import LintReport.Proofs.Command.Verbosity
import LintReport.Proofs.Command.History
import LintReport.Proofs.Terminal.Residue
import LintReport.Proofs.Report.Residue
import LintReport.Proofs.Command.Residue
import LintReport.Proofs.Text.Lines
import LintReport.Proofs.Report.Columns
import LintReport.Proofs.Report.Verbatim
import LintReport.Proofs.Command.Words
import LintReport.Proofs.Command.Exclusion
import LintReport.Proofs.Command.Agreement
import LintReport.Proofs.Command.Complaints
import LintReport.Proofs.Table.Alignment
import LintReport.Proofs.Finding.Malformed
import LintReport.Proofs.Report.Composition
import LintReport.Proofs.Report.Styling
import LintReport.Proofs.Log.History
import LintReport.Proofs.Log.Level
import LintReport.Proofs.Report.Containment
import LintReport.Proofs.Report.Roles
import LintReport.Proofs.Command.Levels
import LintReport.Proofs.Report.Search
