import Arbor.Agent.Basic
import Arbor.Agent.Error
import Arbor.Agent.History
import Arbor.Agent.Id
import Arbor.Agent.Kind
import Arbor.Agent.Reception
import Arbor.Command.Execute
import Arbor.Command.Output
import Arbor.Command.Policy
import Arbor.Command.PolicyDocument
import Arbor.Command.Screen
import Arbor.CommandLine
import Arbor.Config
import Arbor.Directive.Basic
import Arbor.Directive.Error
import Arbor.Directive.Item
import Arbor.Directive.Parse
import Arbor.Directive.Print
import Arbor.Directive.Token
import Arbor.Engine.Basic
import Arbor.Engine.Effects
import Arbor.Engine.Outside
import Arbor.Engine.Settle
import Arbor.Engine.Turns
import Arbor.Engine.Watchdog
import Arbor.FileSystem
import Arbor.Main
import Arbor.Model.Client
import Arbor.Model.Completion
import Arbor.Model.Error
import Arbor.Model.Json
import Arbor.Model.Request
import Arbor.Model.Retry
import Arbor.Path
import Arbor.Project
import Arbor.Prompt.Role
import Arbor.Prompt.Template
import Arbor.Proofs.Agreement
import Arbor.Proofs.Blank
import Arbor.Proofs.ByteOrder
import Arbor.Proofs.Census
import Arbor.Proofs.Command.Sanitizing
import Arbor.Proofs.Command.Truncation
import Arbor.Proofs.Command.Wrapping
import Arbor.Proofs.Containment
import Arbor.Proofs.Directive.Faults
import Arbor.Proofs.Directive.Grammar
import Arbor.Proofs.Directive.Layout
import Arbor.Proofs.Directive.Lexing
import Arbor.Proofs.Directive.RoundTrip
import Arbor.Proofs.Encoding
import Arbor.Proofs.Engine.Answers
import Arbor.Proofs.Engine.Arrivals
import Arbor.Proofs.Engine.Children
import Arbor.Proofs.Engine.Delegation
import Arbor.Proofs.Engine.Failures
import Arbor.Proofs.Engine.Flight
import Arbor.Proofs.Engine.Growth
import Arbor.Proofs.Engine.Helpers
import Arbor.Proofs.Engine.Kinship
import Arbor.Proofs.Engine.Lifecycle
import Arbor.Proofs.Engine.Moves
import Arbor.Proofs.Engine.Obligations
import Arbor.Proofs.Engine.Order
import Arbor.Proofs.Engine.Owners
import Arbor.Proofs.Engine.Prompts
import Arbor.Proofs.Engine.Release
import Arbor.Proofs.Engine.Reports
import Arbor.Proofs.Engine.Rest
import Arbor.Proofs.Engine.Slots
import Arbor.Proofs.Engine.Steps
import Arbor.Proofs.Engine.Tending
import Arbor.Proofs.Engine.Watchdog
import Arbor.Proofs.FileSystem
import Arbor.Proofs.History
import Arbor.Proofs.Joining
import Arbor.Proofs.Linkless
import Arbor.Proofs.Listed
import Arbor.Proofs.Listing
import Arbor.Proofs.Mirror
import Arbor.Proofs.Model.Retry
import Arbor.Proofs.Naming
import Arbor.Proofs.NormalForm
import Arbor.Proofs.Notes
import Arbor.Proofs.Numbers
import Arbor.Proofs.Outcome
import Arbor.Proofs.Path
import Arbor.Proofs.PathEnds
import Arbor.Proofs.Places
import Arbor.Proofs.Population
import Arbor.Proofs.Project
import Arbor.Proofs.Roster
import Arbor.Proofs.Survey
import Arbor.Proofs.Table
import Arbor.Proofs.Turn.Act
import Arbor.Proofs.Turn.Addressing
import Arbor.Proofs.Turn.Bookkeeping
import Arbor.Proofs.Turn.Books
import Arbor.Proofs.Turn.Commuting
import Arbor.Proofs.Turn.Confinement
import Arbor.Proofs.Turn.FollowUp
import Arbor.Proofs.Turn.Fresh
import Arbor.Proofs.Turn.Hiring
import Arbor.Proofs.Turn.Linking
import Arbor.Proofs.Turn.Making
import Arbor.Proofs.Turn.Memory
import Arbor.Proofs.Turn.Numbering
import Arbor.Proofs.Turn.Queue
import Arbor.Proofs.Turn.Refusal
import Arbor.Proofs.Turn.Scratch
import Arbor.Proofs.Turn.Station
import Arbor.Proofs.Turn.Upkeep
import Arbor.Proofs.Turn.Verbs
import Arbor.Proofs.Turn.Vouching
import Arbor.Roster
import Arbor.Session
import Arbor.Shell.Arithmetic
import Arbor.Shell.Builtin
import Arbor.Shell.Decimal
import Arbor.Shell.Expand
import Arbor.Shell.External
import Arbor.Shell.Format
import Arbor.Shell.Pattern
import Arbor.Shell.Process
import Arbor.Shell.Program.Awk
import Arbor.Shell.Program.Awk.Machine
import Arbor.Shell.Program.Awk.Run
import Arbor.Shell.Program.Awk.Script
import Arbor.Shell.Program.Awk.Token
import Arbor.Shell.Program.Awk.Value
import Arbor.Shell.Program.Basic
import Arbor.Shell.Program.Bytes
import Arbor.Shell.Program.Columns
import Arbor.Shell.Program.Condition
import Arbor.Shell.Program.Difference
import Arbor.Shell.Program.Digest
import Arbor.Shell.Program.Edit
import Arbor.Shell.Program.Edit.Bench
import Arbor.Shell.Program.Edit.Script
import Arbor.Shell.Program.Facts
import Arbor.Shell.Program.Files
import Arbor.Shell.Program.Find
import Arbor.Shell.Program.Lines
import Arbor.Shell.Program.Listing
import Arbor.Shell.Program.Names
import Arbor.Shell.Program.Options
import Arbor.Shell.Program.Rights
import Arbor.Shell.Program.Runners
import Arbor.Shell.Program.Search
import Arbor.Shell.Program.Sort
import Arbor.Shell.Program.Text
import Arbor.Shell.Program.Translate
import Arbor.Shell.Redirection
import Arbor.Shell.Regex
import Arbor.Shell.Run
import Arbor.Shell.Script
import Arbor.Shell.Signal
import Arbor.Shell.State
import Arbor.Shell.Stream
import Arbor.Shell.Token
import Arbor.Table
import Arbor.Task
import Arbor.Text.Blank
import Arbor.Text.Decimal
import Arbor.Text.Duration
import Arbor.Text.Hex
import Arbor.Text.Lower
import Arbor.Text.Quoted
import Arbor.Text.Utf8
import Arbor.Text.Visible
import Arbor.Turn.Commands
import Arbor.Turn.Delegation
import Arbor.Turn.Entries
import Arbor.Turn.Interpret
import Arbor.Turn.Memory
import Arbor.Turn.Round
import Arbor.Turn.Scratch
import Arbor.Turn.World
import Arbor.Yaml.Cursor
import Arbor.Yaml.Node
import Arbor.Yaml.Scalar
import Arbor.Yaml.Token
