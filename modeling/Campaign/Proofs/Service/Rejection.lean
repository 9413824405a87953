import Campaign.Proofs.Engine.Frame
import Campaign.Proofs.Engine.Frozen
import Campaign.Proofs.Service.Gate
/-!
# Rejected calls change nothing

A `Service.Call` is an operation or a question; `Service.call` gives the service after it, and why
it was rejected, if it was.  A rejected call leaves the whole service as it was: flows, records,
live runs and timers (`Reachable.rejected`).

Most calls are rejected before anything is done.  Two are not, and need what holds at all times:

* a deactivation puts the flow into the store before it cancels its runs, and a flow that is found
  can be put there (`careful_deactivate`);
* a cancellation drops the timers of its run before it is looked whether the run is live.  A run
  that is not live has no timers (`cancelRun_of_not_live`), and a live run is still found when it
  has been cancelled (`cancelRun_of_live`).
-/
namespace Campaign

namespace Engine

variable {e : Engine} {now : Int} {run : String}

theorem dropTimers_of_nil (h : (e.about run).timers = []) : e.dropTimers now run = e := by
  have hkeep : e.timers.pending.filter (fun t => t.run != run) = e.timers.pending := by
    refine List.filter_eq_self.2 fun t ht => ?_
    simpa [bne] using List.filter_eq_nil_iff.1 h t ht
  simp only [dropTimers, count_eq_zero h, if_true, Scheduler.cancelAll, hkeep]

/-- To cancel a run that is not live does nothing. -/
theorem cancelRun_of_not_live (hc : e.Coherent) (now : Int) (hl : (e.about run).live = none) :
    e.cancelRun now run = (e, false) := by
  have htimers : (e.about run).timers = [] := by
    rcases hc.phase run with hu | hk
    · exact hu.timers
    · cases hk with
      | going r l hg => exact absurd hg.live (by simp [hl])
      | ended r hr hterm hl htimers => exact htimers
  have hlive : e.isLive run = false := by simp [isLive_eq, hl]
  simp only [cancelRun, dropTimers_of_nil htimers, hlive, Bool.false_eq_true, if_false]

theorem cancelRun_snd (now : Int) (run : String) : (e.cancelRun now run).2 = e.isLive run := by
  have hlive : (e.dropTimers now run).isLive run = e.isLive run := by simp [isLive_eq]
  simp only [cancelRun, hlive]
  split <;> simp_all

end Engine

namespace Service

/-- Something that a client asks of a service. -/
inductive Call where
  | operation (o : Operation)
  | flow (id : String)
  | list (active : Option Bool)
  | examine (id : String)
  | analytics (id : String)
  | run (id : String)
  | listRuns (flowId : String)

/-- Where an operation or a question leads: to a service, and to a rejection, if there is one. -/
def reported {α : Type} : Service × Outcome α → Service × Option Rejection
  | (s, .ok _) => (s, none)
  | (s, .error rejection) => (s, some rejection)

/-- The service after a call, and why the call was rejected, if it was. -/
def call (s : Service) : Call → Service × Option Rejection
  | .operation (.create id name) => reported (s.create id name)
  | .operation (.update id change) => reported (s.update id change)
  | .operation (.activate id) => reported (s.activate id)
  | .operation (.deactivate id) => reported (s.deactivate id)
  | .operation (.delete id) => reported (s.delete id)
  | .operation (.trigger run id event) => reported (s.trigger run id event)
  | .operation (.cancelRun run) => reported (s.cancelRun run)
  | .flow id => reported (s, s.flow id)
  | .list active => reported (s, s.list active)
  | .examine id => reported (s, s.examine id)
  | .analytics id => reported (s, s.analytics id)
  | .run id => reported (s, s.run id)
  | .listRuns flowId => reported (s, .ok (s.listRuns flowId))

/-- Whether a call leaves a service as it was if it is rejected. -/
def Careful {α : Type} (s : Service) (result : Service × Outcome α) : Prop :=
  ∀ rejection, result.2 = .error rejection → result.1 = s

variable {s : Service} {id run : String}

namespace Careful

variable {α : Type} {result : Service × Outcome α}

theorem same (s : Service) (outcome : Outcome α) : Careful s (s, outcome) := fun _ _ => rfl

theorem accepted {a : α} (h : result.2 = .ok a) : Careful s result := fun _ hr => by
  rw [h] at hr
  cases hr

theorem reported (h : Careful s result) {rejection : Rejection}
    (hr : (reported result).2 = some rejection) : (Service.reported result).1 = s := by
  obtain ⟨s', outcome⟩ := result
  cases outcome with
  | ok a => cases hr
  | error r => exact h r rfl

end Careful

/-! ## Operations -/

theorem careful_create (s : Service) (id name : String) : s.Careful (s.create id name) := by
  unfold create
  split
  · exact .same s _
  · exact .accepted rfl

theorem careful_store (s : Service) (f : Flow) : s.Careful (s.store f) := by
  unfold store
  split
  · exact .accepted rfl
  · exact .same s _

theorem careful_update (s : Service) (id : String) (change : FlowChange) :
    s.Careful (s.update id change) := by
  unfold update
  split
  · exact .same s _
  · dsimp only
    split
    · exact .same s _
    · exact careful_store s _

/-- A change to an active flow from which an invalid one would result. -/
theorem update_of_invalid {change : FlowChange} {f : Flow} (hf : s.flows.get? id = some f)
    (ha : f.active = true) (hv : (changed f change s.now).examine.valid = false) :
    s.update id change = (s, refuse .badRequest
      "Cannot save a graph with validation errors on an active flow; deactivate it first"
      (detailsOf (changed f change s.now).examine)) := by
  have hactive : (changed f change s.now).active = true := ha
  simp only [update, flow_eq, hf, hactive, hv, Bool.not_false, Bool.and_self, if_true]

theorem careful_activate (s : Service) (id : String) : s.Careful (s.activate id) := by
  unfold activate
  split
  · exact .same s _
  · split
    · exact careful_store s _
    · exact .same s _

/-- A flow that is found can be deactivated. -/
theorem careful_deactivate (hn : s.flows.Named) (id : String) : s.Careful (s.deactivate id) := by
  unfold deactivate
  rw [flow_eq]
  cases hold : s.flows.get? id with
  | none => exact .same s _
  | some old =>
    obtain rfl := hn id old hold
    dsimp only
    rw [store_of_known (f := { old with active := false, updatedAt := s.now }) hold]
    exact .accepted rfl

theorem careful_delete (s : Service) (id : String) : s.Careful (s.delete id) := by
  unfold delete
  split
  · exact .accepted rfl
  · exact .same s _

theorem careful_trigger (s : Service) (run id : String) (event : Event) :
    s.Careful (s.trigger run id event) := by
  unfold trigger
  split
  · split
    · exact .same s _
    · split
      · exact .accepted rfl
      · exact .same s _
  · exact .same s _

/-! ## Cancellation -/

/-- The engine of a service is one that some history leads to. -/
theorem Reachable.engine (h : s.Reachable) : s.host.engine.Reachable := by
  induction h with
  | fresh sender now engaged => exact .idle sender.channel
  | @take s step hreach ha ih =>
    cases step with
    | progress host => exact Engine.Continues.reachable ha ih
    | operation o =>
      have hresult : Result s o (s.take (.operation o)) := result_carryOut hreach.gated.named ha
      generalize s.take (.operation o) = s' at hresult
      cases hresult with
      | rejected => exact ih
      | saved f valid active => exact ih
      | closed id flows named this others =>
        unfold cancelRuns
        split
        · have hturn := ih.take s.host.now (t := .cancelFlowRuns id) trivial
          exact (Host.continues_act hturn.coherent).reachable hturn
        · exact ih
      | started f run event engaged stored active unknown =>
        have hadm : (Turn.start run f event).Admitted s.host.engine := unknown
        have hturn := ih.take s.host.now hadm
        exact (Host.continues_act hturn.coherent).reachable hturn
      | cancelled run =>
        have hturn := ih.take s.host.now (t := .cancelRun run) trivial
        exact (Host.continues_attempt hturn.coherent).reachable hturn

/-- The cancellation of a run that is not live. -/
theorem cancelRun_of_not_live (h : s.Reachable) {r : Run} (hr : s.runs.get? run = some r)
    (hl : s.host.engine.isLive run = false) : s.cancelRun run =
      (s, refuse .conflict ("Run '" ++ run ++ "' is not in progress") .null) := by
  have hlive : (s.host.engine.about run).live = none := by
    simpa [Engine.isLive_eq] using hl
  have hnone := Engine.cancelRun_of_not_live h.engine.coherent s.host.now hlive
  unfold cancelRun Service.run
  rw [hr]
  dsimp only
  split <;> simp [Host.attempt, hnone]

/-- A live run is still found when it has been cancelled. -/
theorem cancelRun_of_live (h : s.Reachable) {r : Run} (hr : s.runs.get? run = some r)
    (hl : s.host.engine.isLive run = true) : ∃ r', (s.cancelRun run).2 = .ok r' := by
  have hengaged : s.engaged = true := by
    by_contra hnot
    have hnone := h.gated.engaged (by simpa using hnot) run
    simp [Engine.isLive, OrderedMap.contains, hnone] at hl
  have hid : r.id = run := h.engine.filed hr
  have hturn := h.engine.take s.host.now (t := .cancelRun run) trivial
  have hcontinues := Host.continues_attempt (h := s.host)
    (f := fun e => e.cancelRun s.host.now run) hturn.coherent
  have hattempt : (s.host.attempt fun e => e.cancelRun s.host.now run).2 = true :=
    (Host.attempt_snd _).trans ((Engine.cancelRun_snd s.host.now run).trans hl)
  -- no record is lost, neither by the cancellation nor by what follows it
  have hcancelled := (Engine.wanes_take h.engine.coherent s.host.now (t := .cancelRun run)
    id).recorded run (Option.isSome_iff_exists.2 ⟨r, hr⟩)
  have hkept := (hcontinues.wanes hturn.coherent).recorded run hcancelled
  obtain ⟨r', hr'⟩ := Option.isSome_iff_exists.1 hkept
  refine ⟨r', ?_⟩
  unfold cancelRun Service.run
  rw [hr]
  simp only [hengaged, if_true, hattempt, hid, runs, hr']

theorem careful_cancelRun (h : s.Reachable) (run : String) : s.Careful (s.cancelRun run) := by
  cases hr : s.runs.get? run with
  | none =>
    have hsame : s.cancelRun run = (s, s.run run |>.map id) := by
      unfold cancelRun Service.run
      rw [hr]
      rfl
    rw [hsame]
    exact .same s _
  | some r =>
    cases hl : s.host.engine.isLive run with
    | false =>
      rw [cancelRun_of_not_live h hr hl]
      exact .same s _
    | true =>
      obtain ⟨r', hr'⟩ := cancelRun_of_live h hr hl
      exact .accepted hr'

/-- **A rejected call changes nothing.**  The service is as it was before: its flows, its records,
its live runs and its timers.  In particular a flow that is active keeps its name, its nodes, its
edges and the time of its last change when a change to it is refused because the flow that would
result has errors; and the refusal to cancel a run that is not live drops no timer. -/
theorem Reachable.rejected (h : s.Reachable) :
    (∀ c rejection, (s.call c).2 = some rejection → (s.call c).1 = s) ∧
    (∀ id change f, s.flows.get? id = some f → f.active = true →
      (changed f change s.now).examine.valid = false →
      (∃ r, (s.update id change).2 = .error (.refused r) ∧ r.kind = .badRequest) ∧
        (s.update id change).1.flows.get? id = some f) ∧
    ∀ run r, s.runs.get? run = some r → s.host.engine.isLive run = false →
      (∃ r, (s.cancelRun run).2 = .error (.refused r) ∧ r.kind = .conflict) ∧
        (s.cancelRun run).1.host.engine.timers = s.host.engine.timers := by
  refine ⟨fun c rejection hc => ?_, fun id change f hf ha hv => ?_, fun run r hr hl => ?_⟩
  · cases c with
    | operation o =>
      cases o with
      | create id name => exact (careful_create s id name).reported hc
      | update id change => exact (careful_update s id change).reported hc
      | activate id => exact (careful_activate s id).reported hc
      | deactivate id => exact (careful_deactivate h.gated.named id).reported hc
      | delete id => exact (careful_delete s id).reported hc
      | trigger run id event => exact (careful_trigger s run id event).reported hc
      | cancelRun run => exact (careful_cancelRun h run).reported hc
    | flow id => exact (Careful.same s (s.flow id)).reported hc
    | list active => exact (Careful.same s (s.list active)).reported hc
    | examine id => exact (Careful.same s (s.examine id)).reported hc
    | analytics id => exact (Careful.same s (s.analytics id)).reported hc
    | run id => exact (Careful.same s (s.run id)).reported hc
    | listRuns flowId => cases hc
  · rw [update_of_invalid hf ha hv]
    exact ⟨⟨_, rfl, rfl⟩, hf⟩
  · rw [cancelRun_of_not_live h hr hl]
    exact ⟨⟨_, rfl, rfl⟩, rfl⟩

/-- A greeting that has come to its end cannot be cancelled, and an open flow cannot lose its
nodes. -/
theorem greeting_rejected :
    let started := welcoming.carryOut (.trigger "r" "f" order)
    let s : Service := { started with host := started.host.settle.advance 8000000000 }
    (s.runs.get? "r").map Run.status = some .completed ∧
      (s.call (.operation (.cancelRun "r"))).2.isSome ∧
      (s.call (.operation (.cancelRun "r"))).1 = s ∧
      (s.update "f" ⟨none, some [], none⟩).1.flows.get? "f" = s.flows.get? "f" := by
  intro started s
  have hwelcoming : welcoming.Reachable :=
    (Reachable.fresh (.mock "mail" 5) 0 true).follow ⟨rfl, trivial, trivial, trivial⟩
  have hnew : (Step.operation (.trigger "r" "f" order)).Admitted welcoming := by
    have hnone : (welcoming.runs.get? "r").isNone = true := by decide +kernel
    exact Option.isNone_iff_eq_none.1 hnone
  have hstarted : started.Reachable := hwelcoming.take hnew
  have hreach : s.Reachable := hstarted.settle.advance 8000000000
  obtain ⟨hsame, hupdate, -⟩ := hreach.rejected
  have hrejected : (s.call (.operation (.cancelRun "r"))).2.isSome = true := by decide +kernel
  obtain ⟨rejection, hrejection⟩ := Option.isSome_iff_exists.1 hrejected
  have hf : (s.flows.get? "f").map (fun f => (f.active,
      (changed f ⟨none, some [], none⟩ s.now).examine.valid)) = some (true, false) := by
    decide +kernel
  obtain ⟨f, hf, hflow⟩ := Option.map_eq_some_iff.1 hf
  obtain ⟨hactive, hinvalid⟩ := Prod.mk.inj hflow
  obtain ⟨-, hkept⟩ := hupdate "f" ⟨none, some [], none⟩ f hf hactive hinvalid
  exact ⟨by decide +kernel, hrejected, hsame _ rejection hrejection, hkept.trans hf.symm⟩

end Service

end Campaign
