import Campaign.Failure
import Campaign.Value.Basic
/-!
# Notices for operators

While it works, the engine tells its operators what it does.  A `Notice` is one such message, with
the run, the flow and the node it concerns and some data; the log of a run is kept elsewhere.
-/
namespace Campaign

/-- How grave a notice is. -/
inductive Gravity where
  | info
  | warning
  | error
  deriving DecidableEq

namespace Gravity

/-- The name of a gravity. -/
def name : Gravity → String
  | info => "INFO"
  | warning => "WARNING"
  | error => "ERROR"

/-- The number of a gravity; a threshold lets through those not below it. -/
def number : Gravity → Int
  | info => 20
  | warning => 30
  | error => 40

end Gravity

/-- Who gives a notice. -/
inductive Reporter where
  | engine
  | scheduler
  | sender
  deriving DecidableEq

/-- The name of a reporter. -/
def Reporter.name : Reporter → String
  | engine => "flowpilot.automation.workflow.engine"
  | scheduler => "flowpilot.automation.workflow.scheduler"
  | sender => "flowpilot.automation.workflow.actions"

/-- A message for the operators. -/
structure Notice where
  /-- Microseconds since the start of 1970. -/
  time : Int
  gravity : Gravity := .info
  reporter : Reporter := .engine
  message : String
  run : Option String := none
  flow : Option String := none
  node : Option String := none
  extra : List (String × Value) := []
  failure : Option Failure := none

namespace Notice

/-- The attributes of a notice, those that name a run, a flow or a node first. -/
def attributes (n : Notice) : List (String × Value) :=
  let named (key : String) (id : Option String) : List (String × Value) :=
    (id.map fun id => (key, Value.text id)).toList
  named "run_id" n.run ++ named "flow_id" n.flow ++ named "node_id" n.node ++ n.extra

end Notice

end Campaign
