import Campaign.Text.Split
/-!
# Places

The paths that mean something to the server.  For every place there are methods that it knows.
-/
namespace Campaign

/-- A place on the server. -/
inductive Place where
  | health
  | flows
  | flow (id : String)
  | activation (flow : String)
  | deactivation (flow : String)
  | examination (flow : String)
  | analytics (flow : String)
  | trigger (flow : String)
  | executions (flow : String)
  | run (id : String)
  | cancellation (run : String)
  deriving DecidableEq

namespace Place

/-- The place that some names lead to. -/
def ofNames? : List String → Option Place
  | ["api", "health"] => some health
  | ["api", "flows"] => some flows
  | ["api", "flows", id] => some (flow id)
  | ["api", "flows", id, "activate"] => some (activation id)
  | ["api", "flows", id, "deactivate"] => some (deactivation id)
  | ["api", "flows", id, "validate"] => some (examination id)
  | ["api", "flows", id, "analytics"] => some (analytics id)
  | ["api", "triggers", id] => some (trigger id)
  | ["api", "executions", id] => some (executions id)
  | ["api", "runs", id] => some (run id)
  | ["api", "runs", id, "cancel"] => some (cancellation id)
  | _ => none

/-- The place at a path; no name on the path is empty. -/
def ofPath? (path : String) : Option Place :=
  match Text.pieces '/' path with
  | "" :: names => if names.contains "" then none else ofNames? names
  | _ => none

/-- The first of the methods that a place knows. -/
def firstMethod : Place → String
  | health | flows | flow _ | analytics _ | executions _ | run _ => "GET"
  | activation _ | deactivation _ | examination _ | trigger _ | cancellation _ => "POST"

/-- The path without slashes at its end, or with one if there is none: where something else might
be. -/
def otherPath (path : String) : String :=
  if path.endsWith "/" then
    String.ofList (path.toList.reverse.dropWhile (· == '/')).reverse
  else path ++ "/"

end Place

end Campaign
