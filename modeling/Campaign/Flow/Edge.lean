import Campaign.Schema.Document
import Campaign.Schema.Scalar
/-!
# Edges

An edge leads from a node to a node.  At a condition, the edge's branch says for which result it
is taken: `true` or `yes`, `false` or `no`.
-/
namespace Campaign

/-- An edge of a flow graph. -/
structure Edge where
  id : String
  source : String
  target : String
  label : Option String
  /-- The result of a condition for which the edge is taken. -/
  branch : Option String
  deriving DecidableEq

namespace Edge

/-- Reads an edge. -/
def read (source : Schema.Source) : Schema.Reader Edge :=
  Schema.record source "Edge" fun r =>
    Edge.mk <$> r.required (.plain "id") Schema.someText
      <*> r.required (.plain "source") Schema.someText
      <*> r.required (.plain "target") Schema.someText
      <*> r.optional (.plain "label") none (Schema.orNull Schema.text)
      <*> r.optional ⟨"conditionPath", "condition_path"⟩ none (Schema.orNull Schema.text)

/-- The edge as a document. -/
def wire (absent : Schema.Absent) (e : Edge) : Value :=
  Schema.document absent
    [("id", some (.text e.id)), ("source", some (.text e.source)),
      ("target", some (.text e.target)), ("label", e.label.map .text),
      ("conditionPath", e.branch.map .text)]

/-- The names of the branch for a result; the first is the one a well-formed flow uses. -/
def branchNames : Bool → List String
  | true => ["true", "yes"]
  | false => ["false", "no"]

/-- Whether the edge is taken for a result of its condition. -/
def taken (e : Edge) (result : Bool) : Bool :=
  match e.branch with
  | some name => (branchNames result).contains name
  | none => false

end Edge

end Campaign
