import Campaign.Proofs.Flow.Store
import Campaign.Proofs.Host.Progress
import Campaign.Service
/-!
# Histories of the service

An `Operation` is a call that can change a flow, or start or cancel runs; between operations the
host gets on with the work.  Both are steps of the service, and they come in any order.

* `Service.Reachable` are the services that some history leads to from a service without flows.
* `Service.Result` says once what an operation can do; every operation keeps to it
  (`result_carryOut`).
-/
namespace Campaign

namespace Service

/-- A call that can change a flow, or start or cancel runs. -/
inductive Operation where
  | create (id name : String)
  | update (id : String) (change : FlowChange)
  | activate (id : String)
  | deactivate (id : String)
  | delete (id : String)
  | trigger (run id : String) (event : Event)
  | cancelRun (run : String)

/-- Ids of flows and runs are new when they are given. -/
def Operation.Admitted (s : Service) : Operation → Prop
  | .create id _ => s.flows.get? id = none
  | .trigger run _ _ => s.runs.get? run = none
  | _ => True

/-- The service after an operation, carried out or rejected. -/
def carryOut (s : Service) : Operation → Service
  | .create id name => (s.create id name).1
  | .update id change => (s.update id change).1
  | .activate id => (s.activate id).1
  | .deactivate id => (s.deactivate id).1
  | .delete id => (s.delete id).1
  | .trigger run id event => (s.trigger run id event).1
  | .cancelRun run => (s.cancelRun run).1

/-- Something that happens to a service. -/
inductive Step where
  | operation (o : Operation)
  /-- The host gets on with the work, up to this point. -/
  | progress (host : Host)

/-- Whether a step can happen: a host lets its engine go on by turns in which no run starts. -/
def Step.Admitted (s : Service) : Step → Prop
  | .operation o => o.Admitted s
  | .progress host => s.host.engine.Continues host.engine

/-- The service after a step. -/
def take (s : Service) : Step → Service
  | .operation o => s.carryOut o
  | .progress host => { s with host }

/-- The service after a number of steps. -/
def follow (s : Service) : List Step → Service
  | [] => s
  | step :: steps => (s.take step).follow steps

/-- Whether all of a number of steps can happen, one after the other. -/
def Admits (s : Service) : List Step → Prop
  | [] => True
  | step :: steps => step.Admitted s ∧ (s.take step).Admits steps

/-- The services that some history leads to, with an engine or without. -/
inductive Reachable : Service → Prop
  | fresh (sender : Sender) (now : Int) (engaged : Bool) :
      Reachable { host := .create sender now, engaged }
  | take {s : Service} {step : Step} : Reachable s → step.Admitted s → Reachable (s.take step)

theorem Reachable.follow {s : Service} {steps : List Step} (h : s.Reachable)
    (ha : s.Admits steps) : (s.follow steps).Reachable := by
  induction steps generalizing s with
  | nil => exact h
  | cons step steps ih => exact ih (h.take ha.1) ha.2

/-! ## What an operation can do -/

/-- Whether events can start runs of a flow. -/
def Open (s : Service) (id : String) : Prop := ∃ f, s.flows.get? id = some f ∧ f.active = true

/-- What an operation can do to a service. -/
inductive Result (s : Service) (o : Operation) : Service → Prop
  | rejected : Result s o s
  /-- A flow is put into the store.  Only an activation opens a flow that was not open. -/
  | saved (f : Flow) (valid : f.active → f.examine.valid)
      (active : f.active = true ↔ s.Open f.id ∨ o = .activate f.id) :
      Result s o { s with flows := s.flows.create f }
  /-- A flow is changed so that it is not open, or deleted, and its runs are cancelled. -/
  | closed (id : String) (flows : FlowStore) (named : flows.Named)
      (this : ∀ f, flows.get? id = some f → f.active = false)
      (others : ∀ other, other ≠ id → flows.get? other = s.flows.get? other) :
      Result s o ({ s with flows }.cancelRuns id)
  /-- A run of an open flow starts. -/
  | started (f : Flow) (run : String) (event : Event) (engaged : s.engaged = true)
      (stored : s.flows.get? f.id = some f) (active : f.active = true)
      (unknown : s.host.engine.runs.get? run = none) :
      Result s o { s with host := s.host.act fun e => e.start s.host.now run f event }
  | cancelled (run : String) :
      Result s o { s with host := (s.host.attempt fun e => e.cancelRun s.host.now run).1 }

variable {s : Service} {id : String} {f : Flow}

theorem flow_eq (s : Service) (id : String) : s.flow id =
    match s.flows.get? id with
    | some f => .ok f
    | none => noFlow id := rfl

/-- A flow whose id is known is put into the store. -/
theorem store_of_known {old : Flow} (h : s.flows.get? f.id = some old) :
    s.store f = ({ s with flows := s.flows.create f }, .ok f) := by
  have hcontains : s.flows.flows.contains f.id = true := by
    have hget : s.flows.flows.get? f.id = some old := h
    simp [OrderedMap.contains, hget]
  simp [store, FlowStore.update, hcontains]

theorem open_iff (h : s.flows.get? id = some f) : s.Open id ↔ f.active = true := by
  simp [Open, h]

theorem result_create (o : Operation) {name : String} (hid : s.flows.get? id = none)
    (ho : o ≠ .activate id) : Result s o (s.create id name).1 := by
  unfold create
  split
  · exact .rejected
  · refine .saved _ (fun h => by cases h) (iff_of_false (by simp) ?_)
    simp [Open, hid, ho]

theorem result_update (hn : s.flows.Named) (o : Operation) (change : FlowChange)
    (ho : o ≠ .activate id) : Result s o (s.update id change).1 := by
  unfold update
  rw [flow_eq]
  cases hold : s.flows.get? id with
  | none => exact .rejected
  | some old =>
    have hid : (changed old change s.now).id = id := hn id old hold
    dsimp only
    split
    · exact .rejected
    · rename_i hvalid
      rw [store_of_known (by rw [hid]; exact hold)]
      refine .saved _ (fun hactive => by simpa [hactive] using hvalid) ?_
      rw [hid, open_iff hold]
      simp [ho, changed]

theorem result_activate (hn : s.flows.Named) (id : String) :
    Result s (.activate id) (s.activate id).1 := by
  unfold activate
  rw [flow_eq]
  cases hold : s.flows.get? id with
  | none => exact .rejected
  | some old =>
    obtain rfl := hn id old hold
    dsimp only
    split
    · rename_i hvalid
      rw [store_of_known (f := { old with active := true, updatedAt := s.now }) hold]
      refine .saved _ (fun _ => ?_) (iff_of_true rfl (.inr rfl))
      exact hvalid
    · exact .rejected

theorem result_deactivate (hn : s.flows.Named) (o : Operation) (id : String) :
    Result s o (s.deactivate id).1 := by
  unfold deactivate
  rw [flow_eq]
  cases hold : s.flows.get? id with
  | none => exact .rejected
  | some old =>
    obtain rfl := hn id old hold
    dsimp only
    rw [store_of_known (f := { old with active := false, updatedAt := s.now }) hold]
    refine .closed old.id _ (hn.create _) (fun f hf => ?_) fun other hother => ?_
    · rw [FlowStore.get?_create, if_pos rfl] at hf
      rw [← Option.some.inj hf]
    · rw [FlowStore.get?_create, if_neg hother]

theorem result_delete (hn : s.flows.Named) (o : Operation) (id : String) :
    Result s o (s.delete id).1 := by
  unfold delete
  split
  · rename_i flows heq
    obtain rfl : (s.flows.delete id).1 = flows := by rw [heq]
    refine .closed id _ (hn.delete id) (fun f hf => ?_) fun other hother => ?_
    · rw [FlowStore.get?_delete, if_pos rfl] at hf
      cases hf
    · rw [FlowStore.get?_delete, if_neg hother]
  · exact .rejected

theorem result_trigger (hn : s.flows.Named) (o : Operation) {run : String} (event : Event)
    (hrun : s.runs.get? run = none) : Result s o (s.trigger run id event).1 := by
  unfold trigger
  split
  · rename_i hengaged
    rw [flow_eq]
    cases hf : s.flows.get? id with
    | none => exact .rejected
    | some f =>
      obtain rfl := hn id f hf
      dsimp only
      split
      · rename_i hactive
        exact .started f run event hengaged hf hactive hrun
      · exact .rejected
  · exact .rejected

theorem result_cancelRun (s : Service) (o : Operation) (run : String) :
    Result s o (s.cancelRun run).1 := by
  unfold cancelRun
  split
  · exact .rejected
  · rw [apply_ite Prod.fst]
    dsimp only
    rw [ite_self]
    split
    · exact .cancelled run
    · exact .rejected

/-- **What an operation can do.** -/
theorem result_carryOut (hn : s.flows.Named) {o : Operation} (ha : o.Admitted s) :
    Result s o (s.carryOut o) := by
  cases o with
  | create id name => exact result_create _ ha (by simp)
  | update id change => exact result_update hn _ change (by simp)
  | activate id => exact result_activate hn id
  | deactivate id => exact result_deactivate hn _ id
  | delete id => exact result_delete hn _ id
  | trigger run id event => exact result_trigger hn _ event ha
  | cancelRun run => exact result_cancelRun s _ run

end Service

end Campaign
