import BuildLens.Text.Blank
import BuildLens.Text.Digit
import BuildLens.Text.Numeral
import BuildLens.Text.Line
import BuildLens.Text.Utf8
import BuildLens.Json.Value
import BuildLens.Json.Number
import BuildLens.Json.Token
import BuildLens.Json.Reader
import BuildLens.Json.Printer
import BuildLens.Json.Record
import BuildLens.Time.Date
import BuildLens.Time.Instant
import BuildLens.Time.Elapsed
import BuildLens.Model.Diagnostic
import BuildLens.Model.Document
import BuildLens.Model.Options
import BuildLens.Model.Output
import BuildLens.Model.Event
import BuildLens.Model.Recording
import BuildLens.Remark.Family
import BuildLens.Remark.Pattern
import BuildLens.Remark.Extract
import BuildLens.Remark.TaskList
import BuildLens.Locate.Search
import BuildLens.Locate.Anchor
import BuildLens.Progress.Tracker
import BuildLens.Progress.Report
import BuildLens.Progress.Percent
import BuildLens.Files.Error
import BuildLens.Files.Path
import BuildLens.Files.Tree
import BuildLens.Environment
import BuildLens.Hub
import BuildLens.Host.Error
import BuildLens.Host.Call
import BuildLens.Host.World
import BuildLens.Session.Error
import BuildLens.Session.Gate
import BuildLens.Session.Config
import BuildLens.Session.Id
import BuildLens.Session.Artifact
import BuildLens.Session.Guard
import BuildLens.Session.Capture
import BuildLens.Session.Stage
import BuildLens.Session.Wait
import BuildLens.Session.Run
import BuildLens.Monitor
import BuildLens.Workbench
import BuildLens.Schedule
import BuildLens.Compiler.Arguments
import BuildLens.Compiler.Machine
import BuildLens.Terminal
import BuildLens.Command.Usage
import BuildLens.Command.Grammar
import BuildLens.Command.Reading
import BuildLens.Command.Line
import BuildLens.Command.Error
import BuildLens.Command.Table
import BuildLens.Command.Run
import BuildLens.Main
import BuildLens.Proofs.Asking
import BuildLens.Proofs.Session.Step
import BuildLens.Proofs.Session.Account
import BuildLens.Proofs.Session.Course
import BuildLens.Proofs.Session.Company
import BuildLens.Proofs.Hub
import BuildLens.Proofs.Waiting
import BuildLens.Proofs.Gate
import BuildLens.Proofs.Remark.Separation
import BuildLens.Proofs.Remark.Rendering
import BuildLens.Proofs.Session.Ending
import BuildLens.Proofs.Progress
import BuildLens.Proofs.Remark.Sightings
import BuildLens.Proofs.Monitor
import BuildLens.Proofs.Remark.Length
import BuildLens.Proofs.Remark.OpenLine
import BuildLens.Proofs.Terminal
import BuildLens.Proofs.Replay
import BuildLens.Proofs.Transcript
import BuildLens.Proofs.Text.Decoding
import BuildLens.Proofs.Text.Numeral
import BuildLens.Proofs.Text.Line
import BuildLens.Proofs.Text.Stripping
import BuildLens.Proofs.Feed
import BuildLens.Proofs.Locate
import BuildLens.Proofs.Json.RoundTrip
import BuildLens.Proofs.Time.RoundTrip
import BuildLens.Proofs.Event
import BuildLens.Proofs.Recording
import BuildLens.Proofs.Verdict
import BuildLens.Proofs.Rows
import BuildLens.Proofs.FirstPlace
import BuildLens.Proofs.StrippedCopy
import BuildLens.Proofs.Text.Trimming
import BuildLens.Proofs.Remark.RawMessage
import BuildLens.Proofs.Text.FileRow
import BuildLens.Proofs.Compiler
import BuildLens.Proofs.Files.Tree
import BuildLens.Proofs.Session.AtTerminal
import BuildLens.Proofs.Session.SourceLine
import BuildLens.Proofs.Time.Clock
import BuildLens.Proofs.Session.Capturing
import BuildLens.Proofs.Session.Subject
import BuildLens.Proofs.Session.Locating
import BuildLens.Proofs.Command.Spelling
import BuildLens.Proofs.Command.Noting
import BuildLens.Proofs.Command.Reading
import BuildLens.Proofs.Command.Verbosity
