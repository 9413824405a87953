import Campaign.Schema.Document
import Campaign.Schema.Scalar
/-!
# Findings

What an examination of a flow reports: a `Finding` has a code, a text, the node or edge it
concerns, and a severity.  A report is valid as long as no finding is an error.
-/
namespace Campaign

/-- How grave a finding is. -/
inductive Severity where
  | error
  | warning
  deriving DecidableEq

namespace Severity

/-- The name of a severity. -/
def name : Severity → String
  | error => "error"
  | warning => "warning"

/-- Both severities, by name. -/
def names : List (String × Severity) := [error, warning].map fun s => (s.name, s)

end Severity

/-- What a finding is about. -/
inductive FindingCode where
  | schemaInvalid
  | emptyNodeLabel
  | emptyEdgeId
  | noTrigger
  | invalidEdgeReference
  | selfLoop
  | duplicateNodeIds
  | duplicateEdgeIds
  | invalidNodeConfig
  | emptyFlow
  | noActions
  | disconnectedNode
  | unreachableNode
  | cycleDetected
  | noIncomingEdge
  | noOutgoingEdge
  | incompleteCondition
  | missingTruePath
  | missingFalsePath
  | noReachableActions
  | noActionNodes
  deriving DecidableEq

namespace FindingCode

/-- The name of a code. -/
def name : FindingCode → String
  | schemaInvalid => "SCHEMA_INVALID"
  | emptyNodeLabel => "EMPTY_NODE_LABEL"
  | emptyEdgeId => "EMPTY_EDGE_ID"
  | noTrigger => "NO_TRIGGER"
  | invalidEdgeReference => "INVALID_EDGE_REFERENCE"
  | selfLoop => "SELF_LOOP"
  | duplicateNodeIds => "DUPLICATE_NODE_IDS"
  | duplicateEdgeIds => "DUPLICATE_EDGE_IDS"
  | invalidNodeConfig => "INVALID_NODE_CONFIG"
  | emptyFlow => "EMPTY_FLOW"
  | noActions => "NO_ACTIONS"
  | disconnectedNode => "DISCONNECTED_NODE"
  | unreachableNode => "UNREACHABLE_NODE"
  | cycleDetected => "CYCLE_DETECTED"
  | noIncomingEdge => "NO_INCOMING_EDGE"
  | noOutgoingEdge => "NO_OUTGOING_EDGE"
  | incompleteCondition => "INCOMPLETE_CONDITION"
  | missingTruePath => "MISSING_TRUE_PATH"
  | missingFalsePath => "MISSING_FALSE_PATH"
  | noReachableActions => "NO_REACHABLE_ACTIONS"
  | noActionNodes => "NO_ACTION_NODES"

/-- All codes, by name. -/
def names : List (String × FindingCode) :=
  [schemaInvalid, emptyNodeLabel, emptyEdgeId, noTrigger, invalidEdgeReference, selfLoop,
    duplicateNodeIds, duplicateEdgeIds, invalidNodeConfig, emptyFlow, noActions,
    disconnectedNode, unreachableNode, cycleDetected, noIncomingEdge, noOutgoingEdge,
    incompleteCondition, missingTruePath, missingFalsePath, noReachableActions,
    noActionNodes].map fun code => (code.name, code)

end FindingCode

/-- Something an examination found. -/
structure Finding where
  code : FindingCode
  message : String
  nodeId : Option String := none
  edgeId : Option String := none
  severity : Severity := .error
  deriving DecidableEq

namespace Finding

/-- Reads a finding. -/
def read : Schema.Reader Finding :=
  Schema.record .document "ValidationFinding" fun r =>
    Finding.mk <$> r.required (.plain "code") (Schema.oneOf FindingCode.names)
      <*> r.required (.plain "message") Schema.text
      <*> r.optional ⟨"nodeId", "node_id"⟩ none (Schema.orNull Schema.text)
      <*> r.optional ⟨"edgeId", "edge_id"⟩ none (Schema.orNull Schema.text)
      <*> r.optional (.plain "severity") .error (Schema.oneOf Severity.names)

/-- The finding as a document. -/
def wire (absent : Schema.Absent) (f : Finding) : Value :=
  Schema.document absent
    [("code", some (.text f.code.name)), ("message", some (.text f.message)),
      ("nodeId", f.nodeId.map .text), ("edgeId", f.edgeId.map .text),
      ("severity", some (.text f.severity.name))]

end Finding

/-- The outcome of an examination. -/
structure Report where
  valid : Bool
  findings : List Finding
  deriving DecidableEq

namespace Report

/-- The report of findings: valid unless one of them is an error. -/
def ofFindings (findings : List Finding) : Report :=
  ⟨findings.all (·.severity != .error), findings⟩

/-- Reads a report. -/
def read : Schema.Reader Report :=
  Schema.record .document "ValidationResult" fun r =>
    Report.mk <$> r.required (.plain "valid") Schema.truth
      <*> r.optional (.plain "errors") [] (Schema.listOf Finding.read)

/-- The report as a document. -/
def wire (absent : Schema.Absent) (r : Report) : Value :=
  .object [("valid", .bool r.valid), ("errors", .list (r.findings.map (Finding.wire absent)))]

/-- The codes of the findings, in order. -/
def codes (r : Report) : List FindingCode := r.findings.map (·.code)

end Report

end Campaign
