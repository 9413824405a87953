import Campaign.Flow.Basic
/-!
# Messages of the server

The bodies of requests and answers that are not flows, runs or reports themselves.
-/
namespace Campaign

/-- A request for a new flow. -/
structure NewFlow where
  name : String

namespace NewFlow

/-- Reads the request. -/
def read (source : Schema.Source) : Schema.Reader NewFlow :=
  Schema.record source "CreateFlowRequest" fun r =>
    NewFlow.mk <$> r.required (.plain "name") Schema.someText

/-- The request as a document. -/
def wire (n : NewFlow) : Value := .object [("name", .text n.name)]

end NewFlow

/-- A request to change some parts of a flow. -/
structure FlowChange where
  name : Option String := none
  nodes : Option (List Node) := none
  edges : Option (List Edge) := none

namespace FlowChange

/-- Reads the request. -/
def read (source : Schema.Source) : Schema.Reader FlowChange :=
  Schema.record source "UpdateFlowRequest" fun r =>
    FlowChange.mk <$> r.optional (.plain "name") none (Schema.orNull Schema.someText)
      <*> r.optional (.plain "nodes") none (Schema.orNull (Schema.listOf (Node.read source)))
      <*> r.optional (.plain "edges") none (Schema.orNull (Schema.listOf (Edge.read source)))

/-- The request as a document. -/
def wire (absent : Schema.Absent) (c : FlowChange) : Value :=
  Schema.document absent
    [("name", c.name.map .text), ("nodes", c.nodes.map fun ns => .list (ns.map Node.wire)),
      ("edges", c.edges.map fun es => .list (es.map (Edge.wire absent)))]

end FlowChange

/-- The answer to an event: the run it started. -/
structure Started where
  runId : String

namespace Started

/-- Reads the answer. -/
def read : Schema.Reader Started :=
  Schema.record .document "TriggerResponse" fun r =>
    Started.mk <$> r.required ⟨"runId", "run_id"⟩ Schema.text

/-- The answer as a document. -/
def wire (s : Started) : Value := .object [("runId", .text s.runId)]

end Started

/-- How often a flow has run, and when it did so last. -/
structure Analytics where
  runs : Int
  lastRunAt : Option String

namespace Analytics

/-- Reads the numbers. -/
def read : Schema.Reader Analytics :=
  Schema.record .document "FlowAnalytics" fun r =>
    Analytics.mk <$> r.required (.plain "runs") Schema.integer
      <*> r.optional ⟨"lastRunAt", "last_run_at"⟩ none (Schema.orNull Schema.text)

/-- The numbers as a document. -/
def wire (absent : Schema.Absent) (a : Analytics) : Value :=
  Schema.document absent
    [("runs", some (.int a.runs)), ("lastRunAt", a.lastRunAt.map .text)]

end Analytics

end Campaign
