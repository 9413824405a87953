import Campaign.Run.Status
import Campaign.Schema.Document
import Campaign.Schema.Scalar
import Campaign.Text.Quoted
/-!
# Records of runs

What is kept of a run: when it started and ended, its status, its log, and the ids of the nodes at
which it is.

Runs and flows are numbered together; an `identifier` is a word for the kind of the thing and its
number in sixteen hexadecimal digits.
-/
namespace Campaign

/-- The identifier of a kind with a number. -/
def identifier (kind : String) (number : Nat) : String :=
  kind ++ "_" ++ String.ofList (Text.hex 16 number)

/-- How grave a log entry is. -/
inductive LogLevel where
  | info
  | warn
  | error
  deriving DecidableEq

namespace LogLevel

/-- The name of a level. -/
def name : LogLevel → String
  | info => "INFO"
  | warn => "WARN"
  | error => "ERROR"

/-- All levels, by name. -/
def names : List (String × LogLevel) := [info, warn, error].map fun l => (l.name, l)

end LogLevel

/-- An entry in the log of a run. -/
structure LogEntry where
  timestamp : Timestamp
  level : LogLevel
  message : String
  /-- Data that belong to the entry; null where there are none. -/
  payload : Value

namespace LogEntry

/-- Reads a log entry; where the time is absent it is `now`. -/
def read (now : Timestamp) : Schema.Reader LogEntry :=
  Schema.record .document "LogEntry" fun r =>
    LogEntry.mk <$> r.optional (.plain "timestamp") now Schema.timestamp
      <*> r.required (.plain "level") (Schema.oneOf LogLevel.names)
      <*> r.required (.plain "message") Schema.text
      <*> r.optional (.plain "payload") .null Schema.anything

/-- The entry as a document. -/
def wire (absent : Schema.Absent) (e : LogEntry) : Value :=
  Schema.document absent
    [("timestamp", some (.text e.timestamp.wire)), ("level", some (.text e.level.name)),
      ("message", some (.text e.message)),
      ("payload", match e.payload with
        | .null => none
        | payload => some payload.wire)]

end LogEntry

/-- The record of a run. -/
structure Run where
  id : String
  flowId : String
  startedAt : Timestamp
  finishedAt : Option Timestamp := none
  status : RunStatus := .pending
  log : List LogEntry := []
  /-- The ids of the nodes at which the run is. -/
  currentNodes : List String := []
  error : Option String := none

namespace Run

/-- Reads the record of a run; where a time is absent it is `now`. -/
def read (now : Timestamp) : Schema.Reader Run :=
  Schema.record .document "ExecutionHistory" fun r =>
    Run.mk <$> r.required (.plain "id") Schema.text
      <*> r.required ⟨"flowId", "flow_id"⟩ Schema.text
      <*> r.optional ⟨"startedAt", "started_at"⟩ now Schema.timestamp
      <*> r.optional ⟨"finishedAt", "finished_at"⟩ none (Schema.orNull Schema.timestamp)
      <*> r.optional (.plain "status") .pending (Schema.oneOf RunStatus.names)
      <*> r.optional (.plain "logs") [] (Schema.listOf (LogEntry.read now))
      <*> r.optional ⟨"currentNodeIds", "current_node_ids"⟩ [] (Schema.listOf Schema.text)
      <*> r.optional (.plain "error") none (Schema.orNull Schema.text)

/-- The record as a document. -/
def wire (absent : Schema.Absent) (r : Run) : Value :=
  Schema.document absent
    [("id", some (.text r.id)), ("flowId", some (.text r.flowId)),
      ("startedAt", some (.text r.startedAt.wire)),
      ("finishedAt", r.finishedAt.map fun t => .text t.wire),
      ("status", some (.text r.status.name)),
      ("logs", some (.list (r.log.map (LogEntry.wire absent)))),
      ("currentNodeIds", some (.list (r.currentNodes.map .text))),
      ("error", r.error.map .text)]

end Run

end Campaign
