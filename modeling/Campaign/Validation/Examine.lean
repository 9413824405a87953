import Campaign.Flow.Config
import Campaign.Validation.Finding
import Campaign.Validation.Graph
/-!
# Examining a flow

`Flow.examine` reports everything that is wrong with a flow.  The checks come in a fixed order, and
each gives its findings in the order of the nodes or edges, so that the same flow always has the
same report.
-/
namespace Campaign

namespace Flow

/-- Whether some edge leads to a node of an id. -/
def hasIncoming (f : Flow) (id : String) : Bool := f.edges.any (·.target = id)

/-- Whether some edge leaves a node of an id. -/
def hasOutgoing (f : Flow) (id : String) : Bool := f.edges.any (·.source = id)

/-- The ids at which events enter. -/
def triggerIds (f : Flow) : List String := f.triggers.map (·.id)

/-- The ids that can be reached from the triggers. -/
def reachable (f : Flow) : List String := Graph.reachable f.edges f.triggerIds

/-- The nodes that send messages. -/
def actions (f : Flow) : List Node := f.nodes.filter (·.kind = .action)

end Flow

/-- Whether a branch may end at a node of a kind. -/
def NodeKind.isSink (kind : NodeKind) : Bool :=
  kind = .finish || kind = .action || kind = .delay

namespace Finding

/-- A finding where there is one to report. -/
def reportIf (condition : Bool) (finding : Finding) : List Finding :=
  if condition then [finding] else []

end Finding

namespace Flow

/-- Labels must say something. -/
def labelFindings (f : Flow) : List Finding :=
  f.nodes.flatMap fun n => Finding.reportIf (Text.blankText n.label)
    { code := .emptyNodeLabel
      message := "Node with ID '" ++ n.id ++ "' has an empty or missing label"
      nodeId := some n.id }

/-- Ids of edges must say something. -/
def edgeIdFindings (f : Flow) : List Finding :=
  f.edges.flatMap fun e => Finding.reportIf (Text.blankText e.id)
    { code := .emptyEdgeId, message := "An edge has an empty or missing ID" }

/-- Events need a place to enter. -/
def triggerFindings (f : Flow) : List Finding :=
  Finding.reportIf f.triggers.isEmpty
    { code := .noTrigger, message := "Flow must have at least one TRIGGER node" }

/-- Edges join nodes of the flow. -/
def referenceFindings (f : Flow) : List Finding :=
  let ids := f.nodes.map (·.id)
  f.edges.flatMap fun e =>
    Finding.reportIf (e.source ∉ ids)
      { code := .invalidEdgeReference
        message := "Edge '" ++ e.id ++ "' has invalid source node '" ++ e.source ++ "'"
        edgeId := some e.id } ++
    Finding.reportIf (e.target ∉ ids)
      { code := .invalidEdgeReference
        message := "Edge '" ++ e.id ++ "' has invalid target node '" ++ e.target ++ "'"
        edgeId := some e.id }

/-- No edge leads from a node to itself. -/
def loopFindings (f : Flow) : List Finding :=
  f.edges.flatMap fun e => Finding.reportIf (e.source = e.target)
    { code := .selfLoop
      message := "Edge '" ++ e.id ++ "' is a self-loop (source === target)"
      edgeId := some e.id }

/-- Ids are distinct, those of nodes and those of edges. -/
def duplicateFindings (f : Flow) : List Finding :=
  let nodes := Graph.duplicates (f.nodes.map (·.id))
  let edges := Graph.duplicates (f.edges.map (·.id))
  Finding.reportIf (!nodes.isEmpty)
    { code := .duplicateNodeIds
      message := "Duplicate node IDs found: " ++ ", ".intercalate nodes } ++
  Finding.reportIf (!edges.isEmpty)
    { code := .duplicateEdgeIds
      message := "Duplicate edge IDs found: " ++ ", ".intercalate edges }

/-- Configurations make sense for the kind of their node. -/
def configFindings (f : Flow) : List Finding :=
  f.nodes.flatMap fun n =>
    match n.configFault? with
    | none => []
    | some fault =>
      [{ code := .invalidNodeConfig, message := fault.message, nodeId := some n.id }]

/-- A flow has nodes, and more than a lone trigger. -/
def sizeFindings (f : Flow) : List Finding :=
  Finding.reportIf f.nodes.isEmpty { code := .emptyFlow, message := "Flow contains no nodes" } ++
  Finding.reportIf (f.nodes.length = 1 && f.triggers.length = 1)
    { code := .noActions
      message := "Flow only contains a trigger node with no subsequent actions"
      severity := .warning }

/-- Nodes are connected. -/
def connectionFindings (f : Flow) : List Finding :=
  f.nodes.flatMap fun n =>
    Finding.reportIf (n.kind ≠ .trigger && !f.hasIncoming n.id && !f.hasOutgoing n.id)
      { code := .disconnectedNode
        message := "Node '" ++ n.label ++
          "' is not connected to any other nodes and will never execute"
        nodeId := some n.id }

/-- Nodes can be reached. -/
def reachFindings (f : Flow) : List Finding :=
  let within := f.reachable
  f.nodes.flatMap fun n =>
    Finding.reportIf (n.kind ≠ .trigger && n.id ∉ within)
      { code := .unreachableNode
        message := "Node '" ++ n.label ++
          "' cannot be reached from any trigger and will never execute"
        nodeId := some n.id }

/-- There are no cycles. -/
def cycleFindings (f : Flow) : List Finding :=
  (Graph.closingEdges f.edges f.triggerIds f.reachable).map fun id =>
    { code := .cycleDetected
      message := "Edge '" ++ id ++ "' closes a cycle; cyclic flows cannot be executed"
      edgeId := some id }

/-- Only triggers begin a flow, and only sinks end it. -/
def endFindings (f : Flow) : List Finding :=
  f.nodes.flatMap fun n =>
    Finding.reportIf (n.kind ≠ .trigger && !f.hasIncoming n.id)
      { code := .noIncomingEdge
        message := "Node '" ++ n.label ++ "' has no incoming connections"
        nodeId := some n.id } ++
    Finding.reportIf (!n.kind.isSink && !f.hasOutgoing n.id)
      { code := .noOutgoingEdge
        message := "Node '" ++ n.label ++
          "' has no outgoing connections and flow will end prematurely"
        nodeId := some n.id }

/-- Whether an edge that leaves a node bears the name of a branch. -/
def hasBranch (f : Flow) (id name : String) : Bool :=
  (f.outgoing id).any (·.branch = some name)

/-- A condition has a way to go for either result. -/
def branchFindings (f : Flow) : List Finding :=
  (f.nodes.filter (·.kind = .condition)).flatMap fun n =>
    Finding.reportIf ((f.outgoing n.id).length < 2)
      { code := .incompleteCondition
        message := "Condition node '" ++ n.label ++
          "' must have at least 2 outgoing paths (true/false branches)"
        nodeId := some n.id } ++
    Finding.reportIf (!f.hasBranch n.id "true")
      { code := .missingTruePath
        message := "Condition node '" ++ n.label ++ "' is missing the 'true' branch"
        nodeId := some n.id } ++
    Finding.reportIf (!f.hasBranch n.id "false")
      { code := .missingFalsePath
        message := "Condition node '" ++ n.label ++ "' is missing the 'false' branch"
        nodeId := some n.id }

/-- A flow sends something. -/
def actionFindings (f : Flow) : List Finding :=
  let within := f.reachable
  Finding.reportIf (!f.actions.isEmpty && !f.actions.any (·.id ∈ within))
    { code := .noReachableActions
      message := "Flow has action nodes but none can be reached from triggers" } ++
  Finding.reportIf (!f.triggers.isEmpty && f.actions.isEmpty)
    { code := .noActionNodes
      message := "Flow has no action nodes - add at least one action to perform" }

/-- Everything that is wrong with a flow. -/
def findings (f : Flow) : List Finding :=
  f.labelFindings ++ f.edgeIdFindings ++ f.triggerFindings ++ f.referenceFindings ++
    f.loopFindings ++ f.duplicateFindings ++ f.configFindings ++ f.sizeFindings ++
    f.connectionFindings ++ f.reachFindings ++ f.cycleFindings ++ f.endFindings ++
    f.branchFindings ++ f.actionFindings

/-- The report on a flow. -/
def examine (f : Flow) : Report := .ofFindings f.findings

end Flow

/-- The first five of the issues that keep a document from being a flow. -/
def issuesText (issues : List Schema.Issue) : String :=
  "; ".intercalate ((issues.take 5).map fun i => i.placed i.fault.message)

/-- The report on a document that should be a flow. -/
def examineDocument (now : Timestamp) (document : Value) : Report :=
  match Flow.read now document with
  | .valid flow => flow.examine
  | .invalid issues =>
    .ofFindings [{ code := .schemaInvalid
                   message := "Schema validation failed: " ++ issuesText issues }]

end Campaign
