import InstallScript.Codec.Format
import InstallScript.Codec.Plan
import InstallScript.Disk.Basic
import InstallScript.Disk.Scan
import InstallScript.Expr.Basic
import InstallScript.Expr.Integer
import InstallScript.Expr.Real
import InstallScript.Host.Basic
import InstallScript.Host.Console
import InstallScript.Host.Prepared
import InstallScript.Host.Prompt
import InstallScript.Log
import InstallScript.Machine.Argument
import InstallScript.Machine.Condition
import InstallScript.Machine.Failure
import InstallScript.Machine.Frame
import InstallScript.Machine.Instruction
import InstallScript.Machine.Loop
import InstallScript.Machine.Run
import InstallScript.Machine.Select
import InstallScript.Machine.Session
import InstallScript.Machine.Step
import InstallScript.Machine.Substitute
import InstallScript.Main
import InstallScript.Notice
import InstallScript.Number.Binary
import InstallScript.Number.Decimal
import InstallScript.Number.Integer
import InstallScript.OrderedMap
import InstallScript.Package.Entry
import InstallScript.Path
import InstallScript.Pattern.Escape
import InstallScript.Pattern.Property
import InstallScript.Pattern.Reader
import InstallScript.Pattern.Regex
import InstallScript.Pattern.Wildcard
import InstallScript.Plan.Basic
import InstallScript.Plan.Change
import InstallScript.Plan.Printer
import InstallScript.Plan.Record
import InstallScript.Proofs.Machine.Argument
import InstallScript.Proofs.Machine.Changes
import InstallScript.Proofs.Machine.Composition
import InstallScript.Proofs.Machine.Effects
import InstallScript.Proofs.Machine.Exec
import InstallScript.Proofs.Machine.Failing
import InstallScript.Proofs.Machine.Frames
import InstallScript.Proofs.Machine.Nesting
import InstallScript.Proofs.Machine.Planning
import InstallScript.Proofs.Machine.Progress
import InstallScript.Proofs.Machine.Reached
import InstallScript.Proofs.Machine.Relocation
import InstallScript.Proofs.Machine.Sequence
import InstallScript.Proofs.Machine.Staging
import InstallScript.Proofs.Machine.Termination
import InstallScript.Proofs.Nesting.Accepted
import InstallScript.Proofs.Nesting.Ahead
import InstallScript.Proofs.Nesting.Block
import InstallScript.Proofs.Nesting.Jumps
import InstallScript.Proofs.Nesting.Linking
import InstallScript.Proofs.Nesting.Placing
import InstallScript.Proofs.Nesting.Reading
import InstallScript.Proofs.Nesting.Relocation
import InstallScript.Proofs.Path.Confined
import InstallScript.Proofs.Path.Output
import InstallScript.Proofs.Plan.Outputs
import InstallScript.Proofs.Plan.WellKept
import InstallScript.Proofs.Result
import InstallScript.Proofs.Script.Canonical
import InstallScript.Proofs.Script.Dump
import InstallScript.Proofs.Script.Lines
import InstallScript.Proofs.Script.Rereading
import InstallScript.Proofs.Script.Shape
import InstallScript.Proofs.Script.Vocabulary
import InstallScript.Proofs.Script.Words
import InstallScript.Proofs.Structured.Landing
import InstallScript.Proofs.Structured.Semantics
import InstallScript.Proofs.Structured.Simulation
import InstallScript.Proofs.Text.Pieces
import InstallScript.Script.Keyword
import InstallScript.Script.Line
import InstallScript.Script.LoadError
import InstallScript.Script.Parser
import InstallScript.Script.Program
import InstallScript.Script.Statement
import InstallScript.Script.Word
import InstallScript.Settings
import InstallScript.Text.Blank
import InstallScript.Text.Cased
import InstallScript.Text.Fold
import InstallScript.Text.Letter
import InstallScript.Text.Lower
import InstallScript.Text.Name
import InstallScript.Text.Numeral
import InstallScript.Text.Pieces
import InstallScript.Text.Range
import InstallScript.Text.Utf8
import InstallScript.Tool.Arguments
import InstallScript.Tool.Command
import InstallScript.Version
import InstallScript.Proofs.Codec.Restoring
import InstallScript.Proofs.Codec.Saved
import InstallScript.Proofs.Machine.DryRun
import InstallScript.Proofs.Plan.Metadata
import InstallScript.Proofs.Machine.Metadata
import InstallScript.Proofs.Disk.Tree
import InstallScript.Proofs.Path.Names
import InstallScript.Proofs.Text.Lower
import InstallScript.Proofs.Disk.Lookup
import InstallScript.Proofs.Package.Folders
import InstallScript.Proofs.Disk.Extracted
import InstallScript.Proofs.Machine.Listing
import InstallScript.Proofs.Expr.Grammar
import InstallScript.Proofs.Expr.Reading
import InstallScript.Proofs.Expr.Integer
import InstallScript.Proofs.Host.Console
import InstallScript.Proofs.Nesting.Matching
import InstallScript.Proofs.Nesting.Extents
import InstallScript.Proofs.Machine.Turns
import InstallScript.Proofs.Machine.Cases
import InstallScript.Proofs.Path.Settled
import InstallScript.Proofs.Plan.Addressing
import InstallScript.Proofs.Machine.Spelling
import InstallScript.Proofs.Machine.FailedStatement
import InstallScript.Proofs.Number.Reading
import InstallScript.Proofs.Machine.Rounds
import InstallScript.Proofs.Machine.Counting
import InstallScript.Proofs.Machine.Placeholders
import InstallScript.Proofs.Script.Forms
import InstallScript.Proofs.Script.Splitting
import InstallScript.Proofs.Script.Language
import InstallScript.Proofs.Script.Grouping
import InstallScript.Proofs.Plan.Writes
import InstallScript.Proofs.Plan.LastWrites
import InstallScript.Proofs.Text.Breaks
import InstallScript.Proofs.Plan.Targets
import InstallScript.Proofs.Path.Joined
import InstallScript.Proofs.Package.Below
import InstallScript.Proofs.Machine.CopiedFolder
import InstallScript.Proofs.Plan.Repeated
import InstallScript.Proofs.Machine.Repeating
import InstallScript.Proofs.Pattern.Wildcard
import InstallScript.Proofs.Pattern.Expression
import InstallScript.Proofs.Machine.Computed
import InstallScript.Proofs.Version
import InstallScript.Proofs.Path.Components
import InstallScript.Proofs.Package.Membership
import InstallScript.Proofs.Machine.Starting
import InstallScript.Proofs.Machine.Calls
