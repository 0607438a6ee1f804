import Ripple.Text.Blank
import Ripple.Text.Word
import Ripple.Text.Lines
import Ripple.Text.Search
import Ripple.Text.Keyword
import Ripple.Text.Utf8
import Ripple.Text.Decimal
import Ripple.Language
import Ripple.Graph
import Ripple.Impact
import Ripple.Json.Reader
import Ripple.Json.Writer
import Ripple.Json.Fields
import Ripple.Files.Change
import Ripple.Graph.Directory
import Ripple.Scanner.Basic
import Ripple.Batch
import Ripple.Exchange.Inputs
import Ripple.Exchange.Results
import Ripple.Environment.Basic
import Ripple.Exchange.Settings
import Ripple.Failure
import Ripple.Settings.Store
import Ripple.Session.Basic
import Ripple.Environment.File
import Ripple.CommandLine.Arguments
import Ripple.CommandLine.Task
import Ripple.CommandLine.Print
import Ripple.CommandLine.Run
import Ripple.CommandLine.Snapshot
import Ripple.Main
import Ripple.Batch.Schedule
import Ripple.Proofs.Graph.Edges
import Ripple.Proofs.Impact.Closure
import Ripple.Proofs.Text.Utf8
import Ripple.Proofs.Text.ByteOrder
import Ripple.Proofs.Batch.Completion
import Ripple.Proofs.Session.Traces
import Ripple.Proofs.CommandLine.Exit
import Ripple.Proofs.Text.Split
import Ripple.Proofs.Text.Lines
import Ripple.Proofs.Text.Blank
import Ripple.Proofs.Finding.Grammar
import Ripple.Proofs.Scanner.Verdicts
import Ripple.Proofs.Files.Walk
import Ripple.Proofs.Files.Pieces
import Ripple.Proofs.Files.Made
import Ripple.Proofs.Staging.Names
import Ripple.Proofs.Staging.Files
import Ripple.Proofs.Batch.Staged
import Ripple.Proofs.Batch.Moves
import Ripple.Proofs.Batch.Queue
import Ripple.Proofs.Batch.Tidy
import Ripple.Proofs.Batch.Alone
import Ripple.Proofs.Files.Entries
import Ripple.Proofs.Depfile.Layout
import Ripple.Proofs.Text.Decode
import Ripple.Proofs.Graph.Directory
import Ripple.Proofs.Settings.Lifecycle
import Ripple.Proofs.Json.Numeral
import Ripple.Proofs.Json.Spelling
import Ripple.Proofs.Json.RoundTrip
import Ripple.Proofs.Json.Fields
import Ripple.Proofs.Exchange.Report
import Ripple.Proofs.Exchange.Settings
import Ripple.Proofs.Files.Places
import Ripple.Proofs.Settings.Canonical
import Ripple.Proofs.Settings.Kept
import Ripple.Proofs.CommandLine.Settings
import Ripple.Proofs.Path
import Ripple.Proofs.Staging.Language
import Ripple.Proofs.Settings.Parts
import Ripple.Proofs.Settings.Precedence
import Ripple.Proofs.CommandLine.Persistence
import Ripple.Proofs.Batch.Remains
import Ripple.Proofs.Finding.Shortest
import Ripple.Proofs.Scanner.Streams
import Ripple.Proofs.Finding.RoundTrip
import Ripple.Proofs.Scanner.Overruns
import Ripple.Proofs.Report.Summary
import Ripple.Proofs.Impact.Insertion
import Ripple.Proofs.Settings.Lens
import Ripple.Proofs.Session.Staging
import Ripple.Proofs.Graph.Reverse
import Ripple.Proofs.Impact.Search
import Ripple.Proofs.Settings.Listed
import Ripple.Proofs.Session.Runs
import Ripple.Proofs.Batch.Reports
import Ripple.Proofs.Batch.Refusals
import Ripple.Proofs.Batch.Looks
import Ripple.Proofs.Batch.Abreast
import Ripple.Proofs.Session.Verdicts
import Ripple.Proofs.Session.Entries
