import Campaign.Engine.Host
import Campaign.Flow.Store
import Campaign.Refusal
import Campaign.Server.Message
import Campaign.Validation.Examine
/-!
# The service

Flows are created, changed, activated and deleted, events start runs of active flows, and runs can
be looked at and cancelled.  An operation gives the service that results from it, and its outcome or
the reason why it was rejected.

* Only a flow whose examination finds no error can be active: activation is refused otherwise, and
  so is a change to an active flow.
* Deactivating or deleting a flow cancels its live runs.
-/
namespace Campaign

/-- Why an operation of the service is rejected. -/
inductive Rejection where
  | refused (r : Refusal)
  /-- The flow that would result is not one. -/
  | invalid (issues : List Schema.Issue)
  /-- Runs need an engine. -/
  | noEngine
  | mixedClocks

/-- The text of the rejection for want of an engine. -/
def Rejection.noEngineText : String := "FlowsService was created without an execution engine"

/-- The service: its flows, and the engine with its runs, if it has one. -/
structure Service where
  flows : FlowStore := {}
  host : Host
  engaged : Bool := true

namespace Service

/-- The outcome of an operation, or why it was rejected. -/
abbrev Outcome (α : Type) := Except Rejection α

def now (s : Service) : Timestamp := .utc s.host.now

def runs (s : Service) : RunStore := s.host.engine.runs

/-- A rejection with a kind and a text. -/
def refuse {α : Type} (kind : RefusalKind) (message : String) (details : Value) : Outcome α :=
  .error (.refused ⟨kind, message, details⟩)

/-- The rejection for want of a flow. -/
def noFlow {α : Type} (id : String) : Outcome α :=
  refuse .notFound ("Flow with id '" ++ id ++ "' not found") .null

/-- The flow of an id. -/
def flow (s : Service) (id : String) : Outcome Flow :=
  match s.flows.get? id with
  | some f => .ok f
  | none => noFlow id

/-- The run of an id. -/
def run (s : Service) (id : String) : Outcome Run :=
  match s.runs.get? id with
  | some r => .ok r
  | none => refuse .notFound ("Execution with id '" ++ id ++ "' not found") .null

/-- The flows, or those that are active or not, from the newest to the oldest. -/
def list (s : Service) (active : Option Bool) : Outcome (List Flow) :=
  match s.flows.list active with
  | .ok flows => .ok flows
  | .error _ => .error .mixedClocks

/-- The report on a flow. -/
def examine (s : Service) (id : String) : Outcome Report := (s.flow id).map Flow.examine

/-- How often a flow has run, and when it did so last. -/
def analytics (s : Service) (id : String) : Outcome Analytics :=
  (s.flow id).map fun _ =>
    let runs := s.runs.ofFlow id
    ⟨runs.length, runs.getLast?.map fun r => r.startedAt.iso⟩

/-- The runs of a flow, in the order in which they started. -/
def listRuns (s : Service) (flowId : String) : List Run := s.runs.ofFlow flowId

/-- Creates a flow without nodes under an id. -/
def create (s : Service) (id name : String) : Service × Outcome Flow :=
  match (Schema.someText (.text name)).under (.key "name") with
  | .invalid issues => (s, .error (.invalid issues))
  | .valid name =>
    let f : Flow := ⟨id, name, false, [], [], s.now, s.now⟩
    ({ s with flows := s.flows.create f }, .ok f)

/-- The findings of a report as details of a refusal. -/
def detailsOf (r : Report) : Value := .list (r.findings.map (Finding.wire .omitted))

/-- Puts a changed flow into the store. -/
def store (s : Service) (f : Flow) : Service × Outcome Flow :=
  match s.flows.update f with
  | .ok flows => ({ s with flows }, .ok f)
  | .error unknown => (s, noFlow unknown.id)

/-- A flow with some parts changed. -/
def changed (f : Flow) (change : FlowChange) (now : Timestamp) : Flow :=
  { f with
    name := change.name.getD f.name
    nodes := change.nodes.getD f.nodes
    edges := change.edges.getD f.edges
    updatedAt := now }

/-- Changes some parts of a flow. -/
def update (s : Service) (id : String) (change : FlowChange) : Service × Outcome Flow :=
  match s.flow id with
  | .error rejection => (s, .error rejection)
  | .ok old =>
    let f := changed old change s.now
    if f.active && !f.examine.valid then
      (s, refuse .badRequest
        "Cannot save a graph with validation errors on an active flow; deactivate it first"
        (detailsOf f.examine))
    else s.store f

/-- Cancels the live runs of a flow. -/
def cancelRuns (s : Service) (flowId : String) : Service :=
  if s.engaged then
    { s with host := s.host.act fun e => (e.cancelFlowRuns s.host.now flowId).1 }
  else s

/-- Deletes a flow. -/
def delete (s : Service) (id : String) : Service × Outcome Unit :=
  match s.flows.delete id with
  | (flows, true) => ({ s with flows }.cancelRuns id, .ok ())
  | (_, false) => (s, noFlow id)

/-- Lets events start runs of a flow. -/
def activate (s : Service) (id : String) : Service × Outcome Flow :=
  match s.flow id with
  | .error rejection => (s, .error rejection)
  | .ok old =>
    if old.examine.valid then s.store { old with active := true, updatedAt := s.now }
    else (s, refuse .badRequest "Cannot activate flow with validation errors"
      (detailsOf old.examine))

/-- Lets no more events start runs of a flow. -/
def deactivate (s : Service) (id : String) : Service × Outcome Flow :=
  match s.flow id with
  | .error rejection => (s, .error rejection)
  | .ok old =>
    let (s, outcome) := s.store { old with active := false, updatedAt := s.now }
    (s.cancelRuns id, outcome)

/-- Starts a run of an active flow under an id. -/
def trigger (s : Service) (runId id : String) (event : Event) : Service × Outcome String :=
  if s.engaged then
    match s.flow id with
    | .error rejection => (s, .error rejection)
    | .ok f =>
      if f.active then
        ({ s with host := s.host.act fun e => e.start s.host.now runId f event }, .ok runId)
      else (s, refuse .badRequest "Flow is not active" .null)
  else (s, .error .noEngine)

/-- Cancels a live run. -/
def cancelRun (s : Service) (id : String) : Service × Outcome Run :=
  match s.run id with
  | .error rejection => (s, .error rejection)
  | .ok r =>
    let (host, live) :=
      if s.engaged then s.host.attempt fun e => e.cancelRun s.host.now id else (s.host, false)
    let s := { s with host }
    if live then (s, s.run r.id)
    else (s, refuse .conflict ("Run '" ++ id ++ "' is not in progress") .null)

end Service

end Campaign
