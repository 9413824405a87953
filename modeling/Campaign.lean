import Campaign.Agenda
import Campaign.CommandLine.Command
import Campaign.CommandLine.Files
import Campaign.CommandLine.Options
import Campaign.CommandLine.Program
import Campaign.Engine.Host
import Campaign.Engine.State
import Campaign.Engine.Turn
import Campaign.Engine.Walk
import Campaign.Engine.Worth
import Campaign.Entries
import Campaign.Event
import Campaign.Failure
import Campaign.Flow.Basic
import Campaign.Flow.Condition
import Campaign.Flow.Config
import Campaign.Flow.Delay
import Campaign.Flow.Edge
import Campaign.Flow.Node
import Campaign.Flow.Recipient
import Campaign.Flow.Store
import Campaign.Flow.Template
import Campaign.Json.Reader
import Campaign.Json.Writer
import Campaign.Log.Directive
import Campaign.Log.Level
import Campaign.Log.Record
import Campaign.Main
import Campaign.Notice
import Campaign.Number.Binary64
import Campaign.Number.Fixed
import Campaign.Number.Shortest
import Campaign.Proofs.Agenda
import Campaign.Proofs.Cancellation
import Campaign.Proofs.CommandLine.Command
import Campaign.Proofs.CommandLine.Reading
import Campaign.Proofs.CommandLine.Runs
import Campaign.Proofs.Engine.Accounting
import Campaign.Proofs.Engine.Bounds
import Campaign.Proofs.Engine.Branches
import Campaign.Proofs.Engine.Coherence
import Campaign.Proofs.Engine.Course
import Campaign.Proofs.Engine.Entrance
import Campaign.Proofs.Engine.Errands
import Campaign.Proofs.Engine.ExactlyOnce
import Campaign.Proofs.Engine.Frame
import Campaign.Proofs.Engine.Frozen
import Campaign.Proofs.Engine.History
import Campaign.Proofs.Engine.Independence
import Campaign.Proofs.Engine.Likeness
import Campaign.Proofs.Engine.Lookups
import Campaign.Proofs.Engine.Paths
import Campaign.Proofs.Engine.Phase
import Campaign.Proofs.Engine.Places
import Campaign.Proofs.Engine.Preorder
import Campaign.Proofs.Engine.Share
import Campaign.Proofs.Engine.Signals
import Campaign.Proofs.Engine.StartOrder
import Campaign.Proofs.Engine.Steps
import Campaign.Proofs.Engine.Story
import Campaign.Proofs.Engine.Timers
import Campaign.Proofs.Engine.Tour
import Campaign.Proofs.Engine.Tree
import Campaign.Proofs.Engine.ValidFlow
import Campaign.Proofs.Engine.Walked
import Campaign.Proofs.Engine.Waning
import Campaign.Proofs.Engine.Worth
import Campaign.Proofs.Entries
import Campaign.Proofs.Failing
import Campaign.Proofs.Flow.Comparison
import Campaign.Proofs.Flow.Condition
import Campaign.Proofs.Flow.Config
import Campaign.Proofs.Flow.Store
import Campaign.Proofs.Flow.Template
import Campaign.Proofs.Host.Attention
import Campaign.Proofs.Host.Budget
import Campaign.Proofs.Host.Patience
import Campaign.Proofs.Host.Progress
import Campaign.Proofs.Host.Released
import Campaign.Proofs.Host.Rest
import Campaign.Proofs.Host.Turns
import Campaign.Proofs.Host.Waiting
import Campaign.Proofs.Json.Numeral
import Campaign.Proofs.Json.RoundTrip
import Campaign.Proofs.Lifecycle
import Campaign.Proofs.Log.Record
import Campaign.Proofs.Number.Order
import Campaign.Proofs.Number.Rounding
import Campaign.Proofs.Number.Shortest
import Campaign.Proofs.Numbering
import Campaign.Proofs.Run.Shared
import Campaign.Proofs.Run.Store
import Campaign.Proofs.Scheduler
import Campaign.Proofs.Schema.Checked
import Campaign.Proofs.Schema.Reads
import Campaign.Proofs.Schema.RoundTrip
import Campaign.Proofs.Sender.Webhook
import Campaign.Proofs.Sequences
import Campaign.Proofs.Server.History
import Campaign.Proofs.Server.Trigger
import Campaign.Proofs.Service.Acceptance
import Campaign.Proofs.Service.Chronicle
import Campaign.Proofs.Service.Gate
import Campaign.Proofs.Service.History
import Campaign.Proofs.Service.Records
import Campaign.Proofs.Service.Rejection
import Campaign.Proofs.Text.Octets
import Campaign.Proofs.Text.Utf8
import Campaign.Proofs.Time.Civil
import Campaign.Proofs.Time.Lawful
import Campaign.Proofs.Time.Wire
import Campaign.Proofs.Timetable.Bookings
import Campaign.Proofs.Timetable.Ends
import Campaign.Proofs.Timetable.Incidents
import Campaign.Proofs.Timetable.Line
import Campaign.Proofs.Timetable.Moves
import Campaign.Proofs.Timetable.Once
import Campaign.Proofs.Validation.Branching
import Campaign.Proofs.Validation.Cycles
import Campaign.Proofs.Validation.Reach
import Campaign.Proofs.Validation.Rearranged
import Campaign.Proofs.Validation.Repeats
import Campaign.Proofs.Validation.Search
import Campaign.Proofs.Validation.WellFormed
import Campaign.Proofs.Value.Path
import Campaign.Proofs.Value.Position
import Campaign.Proofs.Worker
import Campaign.Refusal
import Campaign.Run.Record
import Campaign.Run.Status
import Campaign.Run.Store
import Campaign.Scheduler
import Campaign.Schema.Checked
import Campaign.Schema.Document
import Campaign.Schema.Issue
import Campaign.Schema.Scalar
import Campaign.Schema.Summary
import Campaign.Sender.Basic
import Campaign.Sender.Message
import Campaign.Sender.Webhook
import Campaign.Server.Basic
import Campaign.Server.Message
import Campaign.Server.Origin
import Campaign.Server.Place
import Campaign.Server.Request
import Campaign.Server.Response
import Campaign.Service
import Campaign.Settings.Assignments
import Campaign.Settings.Basic
import Campaign.Text.Blank
import Campaign.Text.Digit
import Campaign.Text.Printable
import Campaign.Text.Quoted
import Campaign.Text.Split
import Campaign.Text.Uppercase
import Campaign.Text.Utf8
import Campaign.Text.Word
import Campaign.Time.Civil
import Campaign.Time.Reading
import Campaign.Time.Timestamp
import Campaign.Timetable
import Campaign.Validation.Examine
import Campaign.Validation.Finding
import Campaign.Validation.Graph
import Campaign.Value.Basic
import Campaign.Value.Display
import Campaign.Value.Path
