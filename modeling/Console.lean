import Console.Number.Binary64
import Console.Number.Decimal
import Console.Text.Unicode
import Console.Text.Quoted
import Console.OrderedMap
import Console.Json.Value
import Console.Json.Printer
import Console.Json.Parser
import Console.Json.Parts
import Console.Level
import Console.Literal
import Console.Record.Reference
import Console.Record.Payload
import Console.Grip
import Console.Record.Timestamp
import Console.Record.Basic
import Console.Record.Fault
import Console.Record.Packet
import Console.Front.Basic
import Console.Front.Summary
import Console.Message.Parameter
import Console.Message.Template
import Console.Message.Formatted
import Console.Message.Ids
import Console.Message.Basic
import Console.Resolution.Basic
import Console.Store
import Console.Views
import Console.Fixture
import Console.SingleFlight.State
import Console.SingleFlight.Session
import Console.Corpus
import Console.Settings.Value
import Console.Settings.Key
import Console.Toml.Text
import Console.Toml.Scalar
import Console.Toml.Document
import Console.Settings.Basic
import Console.Command.Basic
import Console.Command.Arguments
import Console.Program
import Console.Main
import Console.Proofs.OrderedMap
import Console.Proofs.Number.Value
import Console.Proofs.Number.Rounding
import Console.Proofs.Json.Reading
import Console.Proofs.Json.Leaves
import Console.Proofs.Json.Spelling
import Console.Proofs.Json.Continuation
import Console.Proofs.Grip
import Console.Proofs.Front.Limits
import Console.Proofs.Front.Marks
import Console.Proofs.Record.Payload
import Console.Proofs.Record.Timestamp
import Console.Proofs.Record.ObjectTable
import Console.Proofs.Record.Reading
import Console.Proofs.Record.Entries
import Console.Proofs.Record.Written
import Console.Proofs.Record.RoundTrip
import Console.Proofs.Record.NormalForm
import Console.Proofs.Record.Arguments
import Console.Proofs.Record.Descriptions
import Console.Proofs.Record.Microseconds
import Console.Proofs.Message.Scan
import Console.Proofs.Message.Filling
import Console.Proofs.Message.Expansion
import Console.Proofs.Message.Text
import Console.Proofs.Message.Styles
import Console.Proofs.Message.Content
import Console.Proofs.Message.Parameters
import Console.Proofs.Message.Split
import Console.Proofs.Resolution.Table
import Console.Proofs.Resolution.Content
import Console.Proofs.Resolution.Creation
import Console.Proofs.Resolution.Reload
import Console.Proofs.Store
import Console.Proofs.Ids
import Console.Proofs.Slots
import Console.Proofs.Views
import Console.Proofs.Command
import Console.Proofs.Fixture.Lines
import Console.Proofs.Fixture.Layout
import Console.Proofs.Fixture.Agreement
import Console.Proofs.Fixture
import Console.Proofs.SingleFlight.Run
import Console.Proofs.SingleFlight.Moves
import Console.Proofs.SingleFlight.Invariant
import Console.Proofs.SingleFlight.Failures
import Console.Proofs.SingleFlight.Confluence
import Console.Proofs.SingleFlight.Table
import Console.Proofs.SingleFlight.Joined
import Console.Proofs.SingleFlight.Export
import Console.Proofs.SingleFlight.Isolation
import Console.Proofs.Resolution.Types
import Console.Proofs.SingleFlight.Delay
import Console.Proofs.SingleFlight.Prepare
import Console.Proofs.Resolution.Cache
import Console.Proofs.Resolution.Packet
import Console.Proofs.Number.Decimal
import Console.Proofs.Message.Numeral
import Console.Proofs.Message.Whole
import Console.Proofs.Record.Reading
