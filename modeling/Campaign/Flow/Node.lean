import Campaign.Schema.Document
import Campaign.Schema.Scalar
/-!
# Nodes

A node of a flow graph has an id, a label for people, a kind that says what happens there, and a
free-form configuration whose meaning depends on the kind.
-/
namespace Campaign

/-- What happens at a node. -/
inductive NodeKind where
  | trigger
  | action
  | condition
  | delay
  | finish
  deriving DecidableEq

namespace NodeKind

/-- The name of a kind. -/
def name : NodeKind → String
  | trigger => "TRIGGER"
  | action => "ACTION"
  | condition => "CONDITION"
  | delay => "DELAY"
  | finish => "END"

/-- All kinds, by name. -/
def names : List (String × NodeKind) :=
  [trigger, action, condition, delay, finish].map fun kind => (kind.name, kind)

end NodeKind

/-- A node of a flow graph. -/
structure Node where
  id : String
  label : String
  kind : NodeKind
  config : List (String × Value)

namespace Node

/-- Reads a node. -/
def read (source : Schema.Source) : Schema.Reader Node :=
  Schema.record source "Node" fun r =>
    Node.mk <$> r.required (.plain "id") Schema.someText
      <*> r.required (.plain "label") Schema.someText
      <*> r.required (.plain "type") (Schema.oneOf NodeKind.names)
      <*> r.optional (.plain "config") [] Schema.dictionary

/-- The node as a document. -/
def wire (n : Node) : Value :=
  .object [("id", .text n.id), ("label", .text n.label), ("type", .text n.kind.name),
    ("config", (Value.object n.config).wire)]

end Node

end Campaign
