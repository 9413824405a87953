import Campaign.Proofs.Service.Chronicle
/-!
# What operations store and record

`Service.Change` says once how an operation can change a service, without regard to what ids there
are (`change_carryOut`).  So only a creation stores a flow under an id at which there was none
(`stored_carryOut`), and only an event records a run under such an id (`recorded_carryOut`).  What
an event records is told by its outcome (`titles_trigger`).
-/
namespace Campaign

namespace Service

variable {s : Service} {id run : String} {o : Operation}

/-- How an operation changes a service, whatever ids there are. -/
inductive Change (s : Service) (o : Operation) : Service → Prop
  | nothing : Change s o s
  /-- A flow is put into the store, in the place of another one if it has not just been made. -/
  | stores (f : Flow)
      (known : (∃ name, o = .create f.id name) ∨ (s.flows.get? f.id).isSome) :
      Change s o { s with flows := s.flows.create f }
  | closes (id : String) (flows : FlowStore)
      (known : ∀ other, (flows.get? other).isSome → (s.flows.get? other).isSome) :
      Change s o ({ s with flows }.cancelRuns id)
  | runs (host : Host) : Change s o { s with host }

theorem store_cases (s : Service) (f : Flow) :
    (s.store f).1 = s ∨
      (s.flows.get? f.id).isSome ∧ (s.store f).1 = { s with flows := s.flows.create f } := by
  cases hf : s.flows.get? f.id with
  | none =>
    have hcontains : s.flows.flows.contains f.id = false := by
      have hget : s.flows.flows.get? f.id = none := hf
      simp [OrderedMap.contains, hget]
    simp [store, FlowStore.update, hcontains]
  | some old =>
    rw [store_of_known hf]
    exact .inr ⟨rfl, rfl⟩

theorem change_store (s : Service) (o : Operation) (f : Flow) : Change s o (s.store f).1 := by
  rcases store_cases s f with hsame | ⟨hknown, hstored⟩
  · rw [hsame]
    exact .nothing
  · rw [hstored]
    exact .stores f (.inr hknown)

/-- **How operations change a service.** -/
theorem change_carryOut (s : Service) (o : Operation) : Change s o (s.carryOut o) := by
  cases o with
  | create id name =>
    simp only [carryOut, create]
    split
    · exact .nothing
    · exact .stores _ (.inl ⟨name, rfl⟩)
  | update id change =>
    simp only [carryOut, update]
    split
    · exact .nothing
    · split
      · exact .nothing
      · exact change_store s _ _
  | activate id =>
    simp only [carryOut, activate]
    split
    · exact .nothing
    · split
      · exact change_store s _ _
      · exact .nothing
  | deactivate id =>
    simp only [carryOut, deactivate]
    split
    · exact .nothing
    · rename_i old _
      rcases store_cases s { old with active := false, updatedAt := s.now } with
        hsame | ⟨hknown, hstored⟩
      · rw [hsame]
        exact .closes id s.flows fun _ hother => hother
      · rw [hstored]
        refine .closes id _ fun other hother => ?_
        rw [FlowStore.get?_create] at hother
        split at hother
        · rename_i hid
          rwa [hid]
        · exact hother
  | delete id =>
    simp only [carryOut, delete]
    split
    · rename_i flows heq
      obtain rfl : (s.flows.delete id).1 = flows := by rw [heq]
      refine .closes id _ fun other hother => ?_
      rw [FlowStore.get?_delete] at hother
      split at hother
      · cases hother
      · exact hother
    · exact .nothing
  | trigger run id event =>
    simp only [carryOut, trigger]
    split
    · split
      · exact .nothing
      · split
        · exact .runs _
        · exact .nothing
    · exact .nothing
  | cancelRun run =>
    simp only [carryOut, cancelRun]
    split
    · exact .nothing
    · rw [apply_ite Prod.fst]
      dsimp only
      rw [ite_self]
      exact .runs _

/-- Only a creation stores a flow under a new id. -/
theorem stored_carryOut (h : ((s.carryOut o).flows.get? id).isSome) :
    (∃ name, o = .create id name) ∨ (s.flows.get? id).isSome := by
  have hchange := change_carryOut s o
  generalize s.carryOut o = s' at hchange h
  cases hchange with
  | nothing | runs => exact .inr h
  | stores f known =>
    rw [FlowStore.get?_create] at h
    split at h
    · rename_i hid
      rwa [hid]
    · exact .inr h
  | closes closed flows known =>
    rw [flows_cancelRuns] at h
    exact .inr (known id h)

/-- A service keeps its engine. -/
theorem engaged_carryOut (s : Service) (o : Operation) : (s.carryOut o).engaged = s.engaged := by
  have hchange := change_carryOut s o
  generalize s.carryOut o = s' at hchange
  cases hchange with
  | nothing | runs | stores => rfl
  | closes closed flows known =>
    unfold cancelRuns
    split <;> rfl

theorem isSome_titles (e : Engine) (run : String) :
    (e.frame.titles run).isSome = (e.runs.get? run).isSome := Option.isSome_map

/-- An event records no other run than the one that it starts. -/
theorem titles_trigger (h : s.Reachable) {started : String}
    (hnew : s.runs.get? started = none) (flowId : String) (event : Event) (run : String) :
    (s.trigger started flowId event).1.host.engine.frame.titles run =
      match (s.trigger started flowId event).2 with
      | .ok _ => if run = started then some (started, flowId, .utc s.host.now)
          else s.host.engine.frame.titles run
      | .error _ => s.host.engine.frame.titles run := by
  rcases trigger_cases h.gated.named started flowId event with ⟨_, heq⟩ | ⟨f, rfl, heq⟩
  · rw [heq]
  · have hturn := h.engine.take s.host.now (t := .start started f event) hnew
    rw [heq]
    dsimp only
    rw [(Host.continues_act hturn.coherent).frame, Engine.titles_start]

/-- Only an event starts a run. -/
theorem recorded_carryOut (h : s.Reachable) (ha : o.Admitted s)
    (hr : ((s.carryOut o).runs.get? run).isSome) :
    (∃ id event, o = .trigger run id event) ∨ (s.runs.get? run).isSome := by
  rw [runs, ← isSome_titles] at hr
  rw [runs, ← isSome_titles]
  cases o with
  | trigger started flowId event =>
    rw [carryOut, titles_trigger h ha flowId event run] at hr
    split at hr
    · split at hr
      · rename_i hrun
        exact .inl ⟨flowId, event, by rw [hrun]⟩
      · exact .inr hr
    · exact .inr hr
  | _ => exact .inr (by rwa [frame_carryOut h.engine.coherent (by simp)] at hr)

end Service

end Campaign
