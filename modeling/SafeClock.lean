import SafeClock.Bench
import SafeClock.Bench.Scripted
import SafeClock.Bench.Station
import SafeClock.CommandLine.Basic
import SafeClock.CommandLine.Execute
import SafeClock.CommandLine.Outcome
import SafeClock.CommandLine.Parse
import SafeClock.Config.Basic
import SafeClock.Config.Check
import SafeClock.Config.Decode
import SafeClock.Config.Encode
import SafeClock.Config.Environment
import SafeClock.Config.Load
import SafeClock.Config.Paths
import SafeClock.Declaration
import SafeClock.Frequency
import SafeClock.Header
import SafeClock.Interrupt.EventSet
import SafeClock.Interrupt.Table
import SafeClock.Interrupt.Trace
import SafeClock.Log
import SafeClock.Log.Filter
import SafeClock.Main
import SafeClock.Output.Json
import SafeClock.Output.Results
import SafeClock.Output.Style
import SafeClock.Output.Table
import SafeClock.Output.Text
import SafeClock.Output.Time
import SafeClock.Process.Launch
import SafeClock.Process.Status
import SafeClock.Proofs.Bench.Dialogue
import SafeClock.Proofs.Bench.Station
import SafeClock.Proofs.CommandLine.Success
import SafeClock.Proofs.CommandLine.Validation
import SafeClock.Proofs.Config.Check
import SafeClock.Proofs.Config.Choice
import SafeClock.Proofs.Config.Decode
import SafeClock.Proofs.Config.Layers
import SafeClock.Proofs.Config.Leaf
import SafeClock.Proofs.Config.Precedence
import SafeClock.Proofs.Declaration.Form
import SafeClock.Proofs.Declaration.Grammar
import SafeClock.Proofs.Declaration.Lens
import SafeClock.Proofs.Declaration.Numeral
import SafeClock.Proofs.Declaration.Rewrite
import SafeClock.Proofs.Declaration.Site
import SafeClock.Proofs.Grid
import SafeClock.Proofs.Header
import SafeClock.Proofs.Interrupt.Events
import SafeClock.Proofs.Interrupt.Relation
import SafeClock.Proofs.Interrupt.Verdict
import SafeClock.Proofs.Output.Grouping
import SafeClock.Proofs.Search.Accuracy
import SafeClock.Proofs.Search.Bounds
import SafeClock.Proofs.Search.Ceiling
import SafeClock.Proofs.Search.Checked
import SafeClock.Proofs.Search.Count
import SafeClock.Proofs.Search.Course
import SafeClock.Proofs.Search.Descent
import SafeClock.Proofs.Search.Floor
import SafeClock.Proofs.Search.Halting
import SafeClock.Proofs.Search.Intermittent
import SafeClock.Proofs.Search.Knowledge
import SafeClock.Proofs.Search.Move
import SafeClock.Proofs.Search.Phases
import SafeClock.Proofs.Search.Recommendation
import SafeClock.Proofs.Search.Translation
import SafeClock.Proofs.Search.Walk
import SafeClock.Proofs.Session.Cap
import SafeClock.Proofs.Session.Checked
import SafeClock.Proofs.Session.Confirmation
import SafeClock.Proofs.Session.Handback
import SafeClock.Proofs.Session.Protocol
import SafeClock.Proofs.Session.Replay
import SafeClock.Proofs.Session.Restoration
import SafeClock.Proofs.Session.Transcript
import SafeClock.Proofs.System.FileTree
import SafeClock.Proofs.Testbench
import SafeClock.Proofs.Text.Blank
import SafeClock.Proofs.Text.ByteOrder
import SafeClock.Proofs.Text.Decimal
import SafeClock.Proofs.Text.Lines
import SafeClock.Proofs.Text.Words
import SafeClock.Proofs.Value.Fields
import SafeClock.Proofs.Value.Merge
import SafeClock.Search.Report
import SafeClock.Search.Session
import SafeClock.Search.State
import SafeClock.Search.Word
import SafeClock.Shell.Builtin
import SafeClock.Shell.Command
import SafeClock.Shell.Condition
import SafeClock.Shell.Fields
import SafeClock.Shell.Format
import SafeClock.Shell.Parse
import SafeClock.Shell.Pattern
import SafeClock.Shell.Redirection
import SafeClock.Shell.Run
import SafeClock.Shell.State
import SafeClock.Shell.Sum
import SafeClock.System.FileTree
import SafeClock.System.OsError
import SafeClock.System.Path
import SafeClock.Testbench
import SafeClock.Text.Blank
import SafeClock.Text.Bytes
import SafeClock.Text.CharacterSet
import SafeClock.Text.Decimal
import SafeClock.Text.Expression
import SafeClock.Text.Expression.Sign
import SafeClock.Text.Hexadecimal
import SafeClock.Text.Lines
import SafeClock.Text.Real
import SafeClock.Text.Utf8
import SafeClock.Toolchain
import SafeClock.Tooling
import SafeClock.Tools
import SafeClock.Tools.Basic
import SafeClock.Tools.Characters
import SafeClock.Tools.Edit
import SafeClock.Tools.Edit.Instruction
import SafeClock.Tools.Files
import SafeClock.Tools.Lines
import SafeClock.Tools.Select
import SafeClock.Tools.Values
import SafeClock.Value
import SafeClock.Yaml.Cursor
import SafeClock.Yaml.Gap
import SafeClock.Yaml.Node
import SafeClock.Yaml.Property
import SafeClock.Yaml.Scalar.Block
import SafeClock.Yaml.Scalar.Plain
import SafeClock.Yaml.Scalar.Quoted
import SafeClock.Yaml.Schema
import SafeClock.Yaml.Token
import SafeClock.Yaml.Token.Stream
import SafeClock.Proofs.Config.RoundTrip
import SafeClock.Proofs.Testbench.Markers
import SafeClock.Proofs.Config.Defaults
