import Campaign.Proofs.Engine.History
import Campaign.Proofs.Service.History
/-!
# The gate to runs

Events start runs of open flows only, and an open flow is one in which no error is found.  When a
flow is closed or deleted its runs are cancelled; so a live run is always one of an open flow.

* `Service.Gated` is what every step keeps (`Gated.take`);
* a flow that is not open stays so until it is activated (`closed_take`);
* `Reachable.gate` puts this together.
-/
namespace Campaign

namespace Engine

variable {e : Engine} {run : String}

/-- When the runs of a flow have been cancelled none of them is live. -/
theorem live_cancelFlowRuns (hc : e.Coherent) (now : Int) (flowId : String) {l' : Live}
    (hl' : (e.cancelFlowRuns now flowId).1.live.get? run = some l') :
    ∃ l, e.live.get? run = some l ∧ l'.flow = l.flow ∧ l.flow.id ≠ flowId := by
  have hwanes : Wanes e (e.cancelFlowRuns now flowId).1 :=
    wanes_take hc now (t := .cancelFlowRuns flowId) id
  obtain ⟨l, hl, hflow, -⟩ := hwanes.live run l' hl'
  refine ⟨l, hl, hflow, fun hid => ?_⟩
  obtain ⟨r, hgoing, -⟩ := hc.going hl
  have hended : ((e.cancelFlowRuns now flowId).1.about run).live = none := by
    have hm : run ∈ e.liveRunsOf flowId := mem_liveRunsOf.2 ⟨l, hl, hid⟩
    rw [cancelFlowRuns, about_cancelRuns_of_going hgoing now hm]
  have hlive : (e.cancelFlowRuns now flowId).1.live.get? run = none := hended
  rw [hlive] at hl'
  cases hl'

/-- A run that is live after a start is the one that started, or was live before. -/
theorem live_start (now : Int) (started : String) (flow : Flow) (event : Event) {l : Live}
    (hl : (e.start now started flow event).live.get? run = some l) :
    l.flow = flow ∨ e.live.get? run = some l := by
  by_cases hrun : run = started
  · subst hrun
    have hnew : ((e.start now run flow event).about run).live = some { flow, event } := by
      rw [about_start]
    exact .inl (by rw [← Option.some.inj (hnew.symm.trans hl)])
  · have hother : (e.start now started flow event).about run = e.about run :=
      about_start_of_ne hrun now flow event
    exact .inr ((congrArg Share.live hother).symm.trans hl)

end Engine

namespace Service

/-- What holds of a service at all times. -/
structure Gated (s : Service) : Prop where
  coherent : s.host.engine.Coherent
  named : s.flows.Named
  sound : ∀ id f, s.flows.get? id = some f → f.active = true → f.examine.valid = true
  live : ∀ run l, s.host.engine.live.get? run = some l →
    l.flow.examine.valid = true ∧ s.Open l.flow.id
  engaged : s.engaged = false → ∀ run, s.host.engine.live.get? run = none

variable {s s' : Service} {id : String} {f : Flow}

theorem gated_fresh (sender : Sender) (now : Int) (engaged : Bool) :
    Gated { host := .create sender now, engaged } where
  coherent := Engine.coherent_idle sender.channel
  named := fun _ _ h => by cases h
  sound := fun _ _ h => by cases h
  live := fun _ _ h => by cases h
  engaged := fun _ _ => rfl

/-- Once a flow has been put into the store just as much is open as before, but for that flow. -/
theorem open_create {id : String} :
    Open { s with flows := s.flows.create f } id ↔
      (id = f.id ∧ f.active = true) ∨ (id ≠ f.id ∧ s.Open id) := by
  by_cases hid : id = f.id <;> simp [Open, FlowStore.get?_create, hid]

/-- A flow that is put into the store can only open. -/
theorem Open.create (h : s.Open id) (hf : s.Open f.id → f.active = true) :
    Open { s with flows := s.flows.create f } id := by
  rw [open_create]
  by_cases hid : id = f.id
  · subst hid
    exact .inl ⟨rfl, hf h⟩
  · exact .inr ⟨hid, h⟩

namespace Gated

/-- The host may get on with the work. -/
theorem progress (h : s.Gated) {host : Host} (hp : s.host.engine.Continues host.engine) :
    Gated { s with host } where
  coherent := hp.coherent h.coherent
  named := h.named
  sound := h.sound
  live := by
    intro run l' hl'
    obtain ⟨l, hl, hflow, -⟩ := (hp.wanes h.coherent).live run l' hl'
    rw [hflow]
    exact h.live run l hl
  engaged := fun he run => (hp.wanes h.coherent).none (h.engaged he run)

theorem save (h : s.Gated) (hv : f.active = true → f.examine.valid = true)
    (ha : s.Open f.id → f.active = true) : Gated { s with flows := s.flows.create f } where
  coherent := h.coherent
  named := h.named.create f
  sound := by
    intro id g hg hactive
    rw [FlowStore.get?_create] at hg
    split at hg
    · obtain rfl := Option.some.inj hg
      exact hv hactive
    · exact h.sound id g hg hactive
  live := fun run l hl => ⟨(h.live run l hl).1, (h.live run l hl).2.create ha⟩
  engaged := h.engaged

theorem start (h : s.Gated) (run : String) (event : Event) (he : s.engaged = true)
    (hf : s.flows.get? f.id = some f) (ha : f.active = true)
    (hu : s.host.engine.runs.get? run = none) :
    Gated { s with host := s.host.act fun e => e.start s.host.now run f event } := by
  have hadm : (Turn.start run f event).Admitted s.host.engine := hu
  have hc : (s.host.engine.start s.host.now run f event).Coherent :=
    Engine.coherent_take h.coherent s.host.now hadm
  have hcontinues := Host.continues_act (h := s.host)
    (f := fun e => e.start s.host.now run f event) hc
  refine ⟨hcontinues.coherent hc, h.named, h.sound, fun run' l' hl' => ?_, fun hn => ?_⟩
  · obtain ⟨l, hl, hflow, -⟩ := (hcontinues.wanes hc).live run' l' hl'
    rw [hflow]
    rcases Engine.live_start s.host.now run f event hl with hnew | hold
    · rw [hnew]
      exact ⟨h.sound f.id f hf ha, f, hf, ha⟩
    · exact h.live run' l hold
  · rw [he] at hn
    cases hn

/-- Whatever becomes of a flow whose runs are then cancelled. -/
theorem close (h : s.Gated) {flows : FlowStore} (hn : flows.Named)
    (this : ∀ f, flows.get? id = some f → f.active = false)
    (others : ∀ other, other ≠ id → flows.get? other = s.flows.get? other) :
    ({ s with flows }.cancelRuns id).Gated := by
  have hsound : ∀ other f, flows.get? other = some f → f.active = true →
      f.examine.valid = true := by
    intro other f hf hactive
    by_cases hid : other = id
    · subst hid
      rw [this f hf] at hactive
      cases hactive
    · exact h.sound other f (others other hid ▸ hf) hactive
  unfold cancelRuns
  split
  · rename_i he
    have hc : (s.host.engine.cancelFlowRuns s.host.now id).1.Coherent :=
      Engine.coherent_take h.coherent s.host.now (t := .cancelFlowRuns id) trivial
    have hcontinues := Host.continues_act (h := s.host)
      (f := fun e => (e.cancelFlowRuns s.host.now id).1) hc
    refine ⟨hcontinues.coherent hc, hn, hsound, fun run l' hl' => ?_, fun hnot => ?_⟩
    · -- a run that is still live was live before, and its flow is another one
      obtain ⟨l₁, hl₁, hflow₁, -⟩ := (hcontinues.wanes hc).live run l' hl'
      obtain ⟨l, hl, hflow, hid⟩ := Engine.live_cancelFlowRuns h.coherent s.host.now id hl₁
      obtain ⟨hvalid, f, hf, hactive⟩ := h.live run l hl
      rw [hflow₁, hflow]
      exact ⟨hvalid, f, (others l.flow.id hid).trans hf, hactive⟩
    · rw [show s.engaged = true from he] at hnot
      cases hnot
  · -- without an engine there are no runs to cancel
    rename_i he
    have hidle := h.engaged (by simpa using he)
    refine ⟨h.coherent, hn, hsound, fun run l hl => ?_, fun _ => hidle⟩
    have hnone : s.host.engine.live.get? run = none := hidle run
    rw [show s.host.engine.live.get? run = some l from hl] at hnone
    cases hnone

/-- **No operation gets past the gate.** -/
theorem result (h : s.Gated) {o : Operation} (hr : Result s o s') : s'.Gated := by
  cases hr with
  | rejected => exact h
  | saved f valid active => exact h.save valid fun hopen => active.2 (.inl hopen)
  | closed id flows named this others => exact h.close named this others
  | started f run event engaged stored active unknown =>
    exact h.start run event engaged stored active unknown
  | cancelled run =>
    refine h.progress ?_
    have htake : s.host.engine.Continues (s.host.engine.cancelRun s.host.now run).1 :=
      Engine.Continues.refl.take s.host.now (t := .cancelRun run) trivial id
    exact htake.trans (Host.continues_attempt (h := s.host)
      (f := fun e => e.cancelRun s.host.now run) (htake.coherent h.coherent))

theorem take (h : s.Gated) {step : Step} (ha : step.Admitted s) : (s.take step).Gated := by
  cases step with
  | operation o => exact h.result (result_carryOut h.named ha)
  | progress host => exact h.progress ha

end Gated

theorem Reachable.gated (h : s.Reachable) : s.Gated := by
  induction h with
  | fresh sender now engaged => exact gated_fresh sender now engaged
  | take _ ha ih => exact ih.take ha

/-- What the host does on its own are steps of the service. -/
theorem Reachable.settle (h : s.Reachable) : Reachable { s with host := s.host.settle } := by
  have hstep : (Step.progress s.host.settle).Admitted s :=
    Host.continues_settle h.gated.coherent
  exact h.take hstep

theorem Reachable.advance (h : s.Reachable) (micros : Int) :
    Reachable { s with host := s.host.advance micros } := by
  have hstep : (Step.progress (s.host.advance micros)).Admitted s :=
    Host.continues_advance h.gated.coherent micros
  exact h.take hstep

theorem flows_cancelRuns (s : Service) (id : String) : (s.cancelRuns id).flows = s.flows := by
  unfold cancelRuns
  split <;> rfl

/-- Only an activation opens a flow that is not open. -/
theorem closed_result (hs : ¬ s.Open id) {o : Operation} (ho : o ≠ .activate id)
    (hr : Result s o s') : ¬ s'.Open id := by
  cases hr with
  | saved f valid active =>
    rw [open_create]
    rintro (⟨rfl, hactive⟩ | ⟨-, hopen⟩)
    · exact (active.1 hactive).elim hs ho
    · exact hs hopen
  | closed other flows named this others =>
    rintro ⟨f, hf, hactive⟩
    rw [flows_cancelRuns] at hf
    by_cases hid : id = other
    · subst hid
      rw [this f hf] at hactive
      cases hactive
    · exact hs ⟨f, (others id hid).symm.trans hf, hactive⟩
  | _ => exact hs

theorem closed_follow (h : s.Gated) (hs : ¬ s.Open id) {steps : List Step} (ha : s.Admits steps)
    (hn : .operation (.activate id) ∉ steps) : ¬ (s.follow steps).Open id := by
  induction steps generalizing s with
  | nil => exact hs
  | cons step steps ih =>
    obtain ⟨hstep, hrest⟩ := not_or.1 (mt List.mem_cons.2 hn)
    refine ih (h.take ha.1) ?_ ha.2 hrest
    cases step with
    | operation o =>
      refine closed_result hs (fun ho => hstep ?_) (result_carryOut h.named ha.1)
      rw [ho]
    | progress host => exact hs

theorem closed_deactivate (hn : s.flows.Named) (id : String) : ¬ (s.deactivate id).1.Open id := by
  unfold deactivate
  rw [flow_eq]
  cases hold : s.flows.get? id with
  | none =>
    change ¬ s.Open id
    simp [Open, hold]
  | some old =>
    obtain rfl := hn id old hold
    dsimp only
    rw [store_of_known (f := { old with active := false, updatedAt := s.now }) hold]
    simp [Open, flows_cancelRuns, FlowStore.get?_create]

theorem closed_delete (s : Service) (id : String) : ¬ (s.delete id).1.Open id := by
  unfold delete
  split
  · rename_i flows heq
    obtain rfl : (s.flows.delete id).1 = flows := by rw [heq]
    simp [Open, flows_cancelRuns, FlowStore.get?_delete]
  · rename_i flows heq
    have hcontains : s.flows.flows.contains id = false := congrArg Prod.snd heq
    have hnone : s.flows.get? id = none := by
      simpa [OrderedMap.contains, FlowStore.get?] using hcontains
    simp [Open, hnone]

/-- A flow that was deactivated or deleted is not open, also if it was not there. -/
theorem closed_of_closing (hn : s.flows.Named) {o : Operation}
    (ho : o = .deactivate id ∨ o = .delete id) : ¬ (s.carryOut o).Open id := by
  rcases ho with rfl | rfl
  · exact closed_deactivate hn id
  · exact closed_delete s id

/-- **The gate to runs.**  At all times an active flow is one in which no error is found; the flow
of a live run, as it was when the run started, is one in which no error is found, and it is still
there and active.  From the moment at which a flow has been deactivated or deleted none of its runs
is live, until it is activated. -/
theorem Reachable.gate (h : s.Reachable) :
    (∀ id f, s.flows.get? id = some f → f.active = true → f.examine.valid = true) ∧
    (∀ run l, s.host.engine.live.get? run = some l → l.flow.examine.valid = true ∧
      ∃ f, s.flows.get? l.flow.id = some f ∧ f.active = true) ∧
    ∀ id o, (o = .deactivate id ∨ o = .delete id) → ∀ steps, (s.carryOut o).Admits steps →
      .operation (.activate id) ∉ steps →
      ((s.carryOut o).follow steps).host.engine.liveRunsOf id = [] := by
  refine ⟨h.gated.sound, h.gated.live, fun id o ho steps ha hn => ?_⟩
  have hadm : (Step.operation o).Admitted s := by rcases ho with rfl | rfl <;> trivial
  have hreach : (s.carryOut o).Reachable := h.take hadm
  have hclosed := closed_follow hreach.gated (closed_of_closing h.gated.named ho) ha hn
  refine List.eq_nil_iff_forall_not_mem.2 fun run hm => ?_
  obtain ⟨l, hl, rfl⟩ := Engine.mem_liveRunsOf.1 hm
  exact hclosed ((hreach.follow ha).gated.live run l hl).2

/-- A service where the greeting has been made and activated. -/
def welcoming : Service :=
  { host := .create (.mock "mail" 5) 0 : Service }.follow
    [.operation (.create "f" "Greeting"),
      .operation (.update "f" ⟨none, some greeting.nodes, some greeting.edges⟩),
      .operation (.activate "f")]

/-- A run that an order has started waits for its second message, and no run is live any more when
the greeting has been deactivated. -/
theorem greeting_gate :
    let started := welcoming.carryOut (.trigger "r" "f" order)
    let s : Service := { started with host := started.host.settle.advance 3600000000 }
    s.host.engine.liveRuns = ["r"] ∧
      (∃ f, s.flows.get? "f" = some f ∧ f.examine.valid = true) ∧
      ((s.carryOut (.deactivate "f")).follow
        [.operation (.trigger "q" "f" order)]).host.engine.liveRunsOf "f" = [] := by
  intro started s
  have hwelcoming : welcoming.Reachable :=
    (Reachable.fresh (.mock "mail" 5) 0 true).follow ⟨rfl, trivial, trivial, trivial⟩
  have hfirst : (Step.operation (.trigger "r" "f" order)).Admitted welcoming := by
    have hnone : (welcoming.runs.get? "r").isNone = true := by decide +kernel
    exact Option.isNone_iff_eq_none.1 hnone
  have hsecond : (Operation.trigger "q" "f" order).Admitted (s.carryOut (.deactivate "f")) := by
    have hnone : ((s.carryOut (.deactivate "f")).runs.get? "q").isNone = true := by decide +kernel
    exact Option.isNone_iff_eq_none.1 hnone
  have hstarted : started.Reachable := hwelcoming.take hfirst
  have hreach : s.Reachable := hstarted.settle.advance 3600000000
  obtain ⟨hsound, hlive, hclosed⟩ := hreach.gate
  refine ⟨by decide +kernel, ?_, ?_⟩
  · have hf : (s.flows.get? "f").map Flow.active = some true := by decide +kernel
    obtain ⟨f, hf, hactive⟩ := Option.map_eq_some_iff.1 hf
    exact ⟨f, hf, hsound "f" f hf hactive⟩
  · exact hclosed "f" (.deactivate "f") (.inl rfl) _ ⟨hsecond, trivial⟩ (by simp)

end Service

end Campaign
