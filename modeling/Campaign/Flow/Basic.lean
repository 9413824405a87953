import Campaign.Flow.Edge
import Campaign.Flow.Node
/-!
# Flows

A flow is a named graph of nodes and edges.  Ids need not be distinct: a look-up finds the first
node of an id, and edges leave every node that bears the id of their source.
-/
namespace Campaign

/-- A marketing flow. -/
structure Flow where
  id : String
  name : String
  /-- Whether events may start runs of the flow. -/
  active : Bool
  nodes : List Node
  edges : List Edge
  createdAt : Timestamp
  updatedAt : Timestamp

namespace Flow

/-- Reads a flow; where a date is absent it is `now`. -/
def read (now : Timestamp) : Schema.Reader Flow :=
  Schema.record .document "Flow" fun r =>
    Flow.mk <$> r.required (.plain "id") Schema.someText
      <*> r.required (.plain "name") Schema.someText
      <*> r.optional (.plain "active") false Schema.truth
      <*> r.optional (.plain "nodes") [] (Schema.listOf (Node.read .document))
      <*> r.optional (.plain "edges") [] (Schema.listOf (Edge.read .document))
      <*> r.optional ⟨"createdAt", "created_at"⟩ now Schema.timestamp
      <*> r.optional ⟨"updatedAt", "updated_at"⟩ now Schema.timestamp

/-- The flow as a document. -/
def wire (absent : Schema.Absent) (f : Flow) : Value :=
  .object [("id", .text f.id), ("name", .text f.name), ("active", .bool f.active),
    ("nodes", .list (f.nodes.map Node.wire)), ("edges", .list (f.edges.map (Edge.wire absent))),
    ("createdAt", .text f.createdAt.wire), ("updatedAt", .text f.updatedAt.wire)]

/-- The nodes at which events enter. -/
def triggers (f : Flow) : List Node := f.nodes.filter (·.kind = .trigger)

/-- The first node with an id. -/
def node? (f : Flow) (id : String) : Option Node := f.nodes.find? (·.id = id)

/-- The edges that leave a node, in order. -/
def outgoing (f : Flow) (id : String) : List Edge := f.edges.filter (·.source = id)

/-- The targets of the edges that leave a node, in order. -/
def successors (f : Flow) (id : String) : List String := (f.outgoing id).map (·.target)

/-- The targets of the edges that a condition node takes for a result, in order. -/
def branch (f : Flow) (id : String) (result : Bool) : List String :=
  ((f.outgoing id).filter (·.taken result)).map (·.target)

end Flow

end Campaign
