import Campaign.Flow.Condition
import Campaign.Flow.Delay
import Campaign.Flow.Node
/-!
# Node configurations

What the configuration of a node means, by the node's kind: `Node.parseConfig` gives it a type or
says which rule it breaks first.

* A delay lasts a whole number of units from 1 to 365.
* An action names its recipient and has a template or a body that is not blank.
* A condition has its clauses under `logic`.
* Triggers and ends take anything.
-/
namespace Campaign

/-- What an action sends, and to whom. -/
structure Action where
  recipient : String
  template : Option String
  body : Option String
  deriving DecidableEq

/-- The configuration of a node, by its kind. -/
inductive NodeConfig where
  | trigger (fields : List (String × Value))
  | action (a : Action)
  | condition (c : Condition)
  | delay (d : Delay)
  | finish (fields : List (String × Value))

/-- Why a configuration is refused. -/
inductive ConfigFault where
  /-- There is no configuration to speak of. -/
  | absent (kind : NodeKind)
  /-- The first issue with it. -/
  | issue (issue : Schema.Issue)

namespace ConfigFault

/-- What a node of a kind cannot do without. -/
def need : NodeKind → String
  | .delay => "DELAY node requires config with delay settings"
  | .action => "ACTION node requires config with action details"
  | _ => "CONDITION node requires config.logic"

/-- The text of the fault. -/
def message : ConfigFault → String
  | absent kind => need kind
  | issue i => i.placed i.fault.reason

end ConfigFault

namespace Delay

/-- Reads the amount of a delay; an integral float is an integer here. -/
def readAmount : Schema.Reader Int := fun v =>
  let integral : Option (Int × Value) := match v with
    | .int i => some (i, v)
    | .float x => x.toInt?.map fun i => (i, .int i)
    | _ => none
  match integral with
  | none => .fail .notInteger v
  | some (i, v) =>
    if i ≤ 0 then .fail (.notAbove 0) v
    else if 365 < i then .fail (.above 365) v
    else .valid i

/-- Reads a delay. -/
def read : Schema.Reader Delay :=
  Schema.record .document "DelaySpec" fun r =>
    Delay.mk <$> r.required (.plain "amount") readAmount
      <*> r.required (.plain "unit") (Schema.oneOf TimeUnit.names)

end Delay

namespace Action

/-- Whether a text is there and says something. -/
def speaks (s : Option String) : Bool := !Text.blankText (s.getD "")

/-- The rules that concern an action as a whole. -/
def check (whole : Value) (a : Action) : Schema.Checked Action :=
  if Text.blankText a.recipient then .fail (.rule "toField must not be empty") whole
  else if speaks a.template || speaks a.body then .valid a
  else .fail (.rule "ACTION node requires a template or a non-empty body") whole

/-- Reads an action. -/
def read : Schema.Reader Action :=
  Schema.record .document "ActionConfig" fun r =>
    (Action.mk <$> r.required ⟨"toField", "to_field"⟩ Schema.someText
      <*> r.optional (.plain "template") none (Schema.orNull Schema.text)
      <*> r.optional (.plain "body") none (Schema.orNull Schema.text)).andThen (check r.whole)

end Action

namespace NodeConfig

/-- Reads the configuration of a node of a kind. -/
def read : NodeKind → Schema.Reader NodeConfig
  | .trigger => fun v => trigger <$> Schema.dictionary v
  | .finish => fun v => finish <$> Schema.dictionary v
  | .action => fun v => action <$> Action.read v
  | .condition =>
    Schema.record .document "ConditionConfig" fun r =>
      condition <$> r.required (.plain "logic") Condition.read
  | .delay =>
    Schema.record .document "DelayConfig" fun r =>
      delay <$> r.required (.plain "delay") Delay.read

/-- The configuration with its own field names. -/
def wire : NodeConfig → Value
  | trigger fields | finish fields => (Value.object fields).wire
  | action a =>
    .object [("to_field", .text a.recipient), ("template", .ofText? a.template),
      ("body", .ofText? a.body)]
  | condition c => .object [("logic", c.wire)]
  | delay d =>
    .object [("delay", .object [("amount", .int d.amount), ("unit", .text d.unit.name)])]

end NodeConfig

namespace Node

/-- Whether the part of the configuration that the kind cannot do without is there at all. -/
def hasConfig (n : Node) : Bool :=
  match n.kind with
  | .delay | .action => !n.config.isEmpty
  | .condition => ((n.config.lookup "logic").map Value.truthy).getD false
  | .trigger | .finish => true

/-- The configuration of a node, or the first rule it breaks. -/
def parseConfig (n : Node) : Except ConfigFault NodeConfig :=
  if n.hasConfig then
    match NodeConfig.read n.kind (.object n.config) with
    | .valid config => .ok config
    | .invalid (issue :: _) => .error (.issue issue)
    | .invalid [] => .error (.absent n.kind)
  else .error (.absent n.kind)

/-- The fault of a node's configuration, if it has one. -/
def configFault? (n : Node) : Option ConfigFault :=
  match n.parseConfig with
  | .ok _ => none
  | .error fault => some fault

end Node

end Campaign
