import Anneal.Artifact
import Anneal.Backend.Descriptor
import Anneal.Backend.Error
import Anneal.Backend.Exchange
import Anneal.Backend.Http
import Anneal.Backend.Registry
import Anneal.Backend.Retry
import Anneal.CommandLine.Arguments
import Anneal.CommandLine.Run
import Anneal.Comparison
import Anneal.Conversation.Agent
import Anneal.Conversation.History
import Anneal.Conversation.Message
import Anneal.Decimal.Layout
import Anneal.Decimal.Places
import Anneal.Decimal.Reading
import Anneal.Decimal.Shortest
import Anneal.Disk
import Anneal.Journal
import Anneal.Json.Decode
import Anneal.Json.FieldPath
import Anneal.Json.Printer
import Anneal.Json.Reader
import Anneal.Json.Value
import Anneal.Keyed
import Anneal.Main
import Anneal.Path
import Anneal.Program.Capture
import Anneal.Program.Compiler
import Anneal.Program.Machine
import Anneal.Program.Run
import Anneal.Prompts
import Anneal.Proofs.Artifact
import Anneal.Proofs.Artifact.Replacement
import Anneal.Proofs.Backend.Backoff
import Anneal.Proofs.Backend.Descriptor
import Anneal.Proofs.Backend.Fragments
import Anneal.Proofs.Backend.Registrations
import Anneal.Proofs.Backend.RequestBody
import Anneal.Proofs.Backend.Retry
import Anneal.Proofs.Backend.Sending
import Anneal.Proofs.Calendar
import Anneal.Proofs.CommandLine.Builds
import Anneal.Proofs.Comparison
import Anneal.Proofs.Comparison.Spacing
import Anneal.Proofs.Conversation.Bounded
import Anneal.Proofs.Conversation.Failures
import Anneal.Proofs.Conversation.Notes
import Anneal.Proofs.Conversation.Shapes
import Anneal.Proofs.Conversation.Speaker
import Anneal.Proofs.Disk.Below
import Anneal.Proofs.Disk.Follow
import Anneal.Proofs.Disk.Frame
import Anneal.Proofs.Disk.Names
import Anneal.Proofs.Disk.Operations
import Anneal.Proofs.Disk.Parents
import Anneal.Proofs.Disk.Stored
import Anneal.Proofs.Disk.Way
import Anneal.Proofs.Disk.Within
import Anneal.Proofs.FieldPath.Grammar
import Anneal.Proofs.FieldPath.Lookup
import Anneal.Proofs.FieldPath.Rendering
import Anneal.Proofs.Journal
import Anneal.Proofs.Journal.Kept
import Anneal.Proofs.Journal.ReadBack
import Anneal.Proofs.Json.Compact
import Anneal.Proofs.Json.Decoding
import Anneal.Proofs.Json.Doubles
import Anneal.Proofs.Json.Extension
import Anneal.Proofs.Json.Indented
import Anneal.Proofs.Json.Legible
import Anneal.Proofs.Json.Numbers
import Anneal.Proofs.Json.Reading
import Anneal.Proofs.Json.Records
import Anneal.Proofs.Json.Strings
import Anneal.Proofs.Keyed
import Anneal.Proofs.Lists
import Anneal.Proofs.Program.Capture
import Anneal.Proofs.Program.Children
import Anneal.Proofs.Program.Steps
import Anneal.Proofs.Prompts.Template
import Anneal.Proofs.Prompts.Verbatim
import Anneal.Proofs.Rehearsal
import Anneal.Proofs.Repair.Accounting
import Anneal.Proofs.Repair.Blocks
import Anneal.Proofs.Repair.Cancellation
import Anneal.Proofs.Repair.Candidate
import Anneal.Proofs.Repair.Chain
import Anneal.Proofs.Repair.Check
import Anneal.Proofs.Repair.Convergence
import Anneal.Proofs.Repair.Course
import Anneal.Proofs.Repair.Ending
import Anneal.Proofs.Repair.Faithful
import Anneal.Proofs.Repair.Hindrance
import Anneal.Proofs.Repair.Journal
import Anneal.Proofs.Repair.Notes
import Anneal.Proofs.Repair.Order
import Anneal.Proofs.Repair.Outputs
import Anneal.Proofs.Repair.Pass
import Anneal.Proofs.Repair.Records
import Anneal.Proofs.Repair.SharedJournal
import Anneal.Proofs.Repair.Trace
import Anneal.Proofs.Repair.Traced
import Anneal.Proofs.Repair.Verdict
import Anneal.Proofs.Reply.Fence
import Anneal.Proofs.Reply.FirstBlock
import Anneal.Proofs.Reply.Markers
import Anneal.Proofs.Reply.Schema
import Anneal.Proofs.Reply.Structured
import Anneal.Proofs.Session.Commands
import Anneal.Proofs.Session.Course
import Anneal.Proofs.Settings.Backends
import Anneal.Proofs.Settings.Omitted
import Anneal.Proofs.Settings.Outputs
import Anneal.Proofs.Settings.Survival
import Anneal.Proofs.Text.Blank
import Anneal.Proofs.Text.Collapse
import Anneal.Proofs.Text.Lines
import Anneal.Proofs.Text.Search
import Anneal.Proofs.Text.Utf8
import Anneal.Proofs.Text.Words
import Anneal.Proofs.Timestamp
import Anneal.Proofs.Toml.Printing
import Anneal.Proofs.Tool.Choice
import Anneal.Proofs.Tool.Invocations
import Anneal.Proofs.Tool.Requests
import Anneal.Proofs.Tool.Routing
import Anneal.Proofs.Tool.Storage
import Anneal.Proofs.Verification
import Anneal.Repair.Loop
import Anneal.Repair.Setup
import Anneal.Repair.Verify
import Anneal.Reply.Extraction
import Anneal.Reply.Fence
import Anneal.Reply.Payload
import Anneal.Scripted
import Anneal.Session
import Anneal.Settings.Backends
import Anneal.Settings.Basic
import Anneal.Settings.Document
import Anneal.Settings.Record
import Anneal.Shell.Arithmetic
import Anneal.Shell.Builtins
import Anneal.Shell.Fields
import Anneal.Shell.Format
import Anneal.Shell.Homes
import Anneal.Shell.Machine
import Anneal.Shell.Nesting
import Anneal.Shell.PathNames
import Anneal.Shell.Pattern
import Anneal.Shell.Programs
import Anneal.Shell.Reader
import Anneal.Shell.Regex
import Anneal.Shell.Signals
import Anneal.Shell.Source
import Anneal.Shell.State
import Anneal.Shell.Streams
import Anneal.Shell.Syntax
import Anneal.Shell.Utilities.Bytes
import Anneal.Shell.Utilities.Conditions
import Anneal.Shell.Utilities.Files
import Anneal.Shell.Utilities.Lines
import Anneal.Shell.Utilities.Numbers
import Anneal.Shell.Utilities.Search
import Anneal.Shell.Utilities.Standalone
import Anneal.Shell.Utility
import Anneal.Text.Blank
import Anneal.Text.Quoted
import Anneal.Text.Search
import Anneal.Text.Unmarked
import Anneal.Text.Utf8
import Anneal.Timestamp
import Anneal.Toml.Printer
import Anneal.Toml.Reader
import Anneal.Toml.Scalar
import Anneal.Toml.Tree
import Anneal.Tool.Choice
import Anneal.Tool.Convert
import Anneal.Tool.Explain
import Anneal.Tool.Toolbox
import Anneal.Toolchain
import Anneal.Verification
import Anneal.Word
import Anneal.World
