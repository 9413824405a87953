import Campaign.Proofs.Host.Turns
/-!
# Clients are released

When a run has ended its engine says so, and a client that waits for the run is released: it waits
no more, and its wish is on the agenda (`Host.Released`).  As long as the run is live the client
waits on (`Host.Attended`).  Whatever else the host has to do for its engine meanwhile does not
matter (`Attended.absorb`, `released_absorb`).
-/
namespace Campaign.Host

variable {h : Host} {run : String} {w : Wish}

/-- Whether a client waits no more and is to have its turn. -/
structure Released (w : Wish) (h : Host) : Prop where
  awaited : h.awaited = none
  wish : h.agenda.Holds (.wish w)

/-- What a host hands to its sender is nothing to a client. -/
theorem deliver_outside (h : Host) (ticket : Nat) (m : Message) :
    (h.deliver ticket m).1.awaited = h.awaited ∧
      ∀ job, h.agenda.Holds job → (h.deliver ticket m).1.agenda.Holds job := by
  unfold deliver
  generalize h.sender.take h.now m = taken
  obtain ⟨sender, ⟨cancels, delay, outcome⟩, notices⟩ := taken
  cases cancels <;> cases delay
  case none.none => exact ⟨rfl, fun _ => id⟩
  case some.none => exact ⟨rfl, fun _ => id⟩
  all_goals exact ⟨rfl, fun _ hj => Agenda.holds_putOff.2 (.inl hj)⟩

/-- Beside the end of a run, what a host does for its engine is nothing to a client. -/
theorem serve_outside (h : Host) {effect : Effect} (he : ∀ s, effect ≠ .ended s) :
    (h.serve effect).awaited = h.awaited ∧
      ∀ job, h.agenda.Holds job → (h.serve effect).agenda.Holds job := by
  cases effect with
  | begin s => exact ⟨rfl, fun _ hj => Agenda.holds_post.2 (.inl hj)⟩
  | arm timer ms => exact ⟨rfl, fun _ hj => Agenda.holds_post.2 (.inl hj)⟩
  | ended s => exact absurd rfl (he s)
  | send ticket m =>
    have hdelivered := h.deliver_outside ticket m
    simp only [serve]
    split <;> rename_i heq <;> rw [heq] at hdelivered <;> exact hdelivered

/-- What a host does for its engine takes nothing off the agenda. -/
theorem holds_serve (effect : Effect) {job : Job} (hj : h.agenda.Holds job) :
    (h.serve effect).agenda.Holds job := by
  by_cases he : ∃ s, effect = .ended s
  · obtain ⟨s, rfl⟩ := he
    simp only [serve]
    split
    · split
      · exact Agenda.holds_post.2 (.inl hj)
      · exact hj
    · exact hj
  · exact (h.serve_outside fun s heq => he ⟨s, heq⟩).2 job hj

/-- A client waits on when another run has ended, and else is released. -/
theorem serve_ended_of_awaited (hw : h.awaited = some (run, w)) (s : String) :
    Released w (h.serve (.ended s)) ∨ s ≠ run ∧ h.serve (.ended s) = h := by
  simp only [serve, hw]
  split
  · exact .inl ⟨rfl, Agenda.holds_post.2 (.inr rfl)⟩
  · rename_i hne
    exact .inr ⟨Ne.symm hne, rfl⟩

/-- A client that is released stays so. -/
theorem Released.serve (hr : Released w h) (effect : Effect) : Released w (h.serve effect) := by
  by_cases he : ∃ s, effect = .ended s
  · obtain ⟨s, rfl⟩ := he
    simpa only [Host.serve, hr.awaited] using hr
  · obtain ⟨hawaited, hholds⟩ := h.serve_outside fun s heq => he ⟨s, heq⟩
    exact ⟨hawaited.trans hr.awaited, hholds _ hr.wish⟩

/-- Whether a client waits for the end of a run: it is live, or its host is still to hear of its
end. -/
structure Awaits (run : String) (w : Wish) (h : Host) : Prop where
  awaited : h.awaited = some (run, w)
  coming : (h.engine.live.get? run).isSome ∨ .ended run ∈ h.engine.effects

/-- A run that is live stays so until its host is to hear of its end. -/
theorem kept_coming (run : String) : Kept fun h => h.engine.Coherent ∧
    ((h.engine.live.get? run).isSome ∨ .ended run ∈ h.engine.effects) where
  turn := by
    rintro h now t ⟨hc, hcoming⟩ ha hs hserved
    obtain ⟨added, heffects, hended⟩ := (Engine.regular_take hc now hs hserved).frank
    refine ⟨Engine.coherent_take hc now ha, ?_⟩
    rw [heffects, List.mem_append, hended]
    rcases hcoming with hlive | htold
    · cases hnext : (h.engine.take now t).live.get? run with
      | none => exact .inr (.inr ⟨hlive, rfl⟩)
      | some l => exact .inl rfl
    · exact .inr (.inl htold)
  outside := fun _ _ _ _ hp _ => hp

/-- Whether a client waits, or waits no more and is to have its turn. -/
def Attended (run : String) (w : Wish) (h : Host) : Prop := Released w h ∨ Awaits run w h

/-- What is still to be done for the engine stays to be done. -/
theorem Awaits.served (ha : Awaits run w h) (hc : h.engine.Coherent) {effect : Effect}
    {rest : List Effect} (he : h.engine.effects = effect :: rest) :
    Attended run w (h.served effect rest) := by
  have hawaited : h.cleared.awaited = some (run, w) := ha.awaited
  have hended : ∀ s ∈ (h.cleared.serve effect).engine.effects,
      s ∈ (h.served effect rest).engine.effects := fun s hs => List.mem_append_left _ hs
  -- the end of the run is told by this effect or by one after it, unless the run is live
  have hcoming : effect ≠ .ended run → ((h.served effect rest).engine.live.get? run).isSome ∨
      .ended run ∈ (h.served effect rest).engine.effects := by
    intro hne
    rcases ha.coming with hlive | htold
    · have hserve : (h.cleared.serve effect).engine.Coherent ∧
          (((h.cleared.serve effect).engine.live.get? run).isSome ∨
            .ended run ∈ (h.cleared.serve effect).engine.effects) := by
        refine (kept_coming run).serve ⟨coherent_cleared hc, .inl hlive⟩ fun s hs => ?_
        rw [hs, serve_ended_engine]
        exact ⟨coherent_cleared hc, .inl hlive⟩
      exact hserve.2.imp_right (hended _)
    · refine .inr (List.mem_append_right _ ?_)
      exact (List.mem_cons.1 (he ▸ htold)).resolve_left hne.symm
  by_cases hs : ∃ s, effect = .ended s
  · obtain ⟨s, rfl⟩ := hs
    rcases serve_ended_of_awaited hawaited s with hr | ⟨hne, hsame⟩
    · exact .inl ⟨hr.awaited, hr.wish⟩
    · refine .inr ⟨?_, hcoming (by simpa using hne)⟩
      exact (congrArg Host.awaited hsame).trans hawaited
  · have hne : ∀ s, effect ≠ .ended s := fun s heq => hs ⟨s, heq⟩
    exact .inr ⟨(h.cleared.serve_outside hne).1.trans hawaited, hcoming (hne run)⟩

/-- Whatever a host does for its engine, a client that waits for a run is not forgotten. -/
theorem Attended.absorb (ha : Attended run w h) (hc : h.engine.Coherent) (fuel : Nat) :
    Attended run w (absorb fuel h) := by
  refine (kept_absorb (P := fun h' => h'.engine.Coherent ∧ Attended run w h') ?_ ⟨hc, ha⟩ fuel).2
  rintro h' effect rest ⟨hc', hr | ha'⟩ he
  · have hcleared : Released w h'.cleared := ⟨hr.awaited, hr.wish⟩
    have hserved := hcleared.serve effect
    exact ⟨(continues_served hc' he).coherent hc', .inl ⟨hserved.awaited, hserved.wish⟩⟩
  · exact ⟨(continues_served hc' he).coherent hc', ha'.served hc' he⟩

/-- **A client is released when its host has done all that the engine wants**, if the run has
ended. -/
theorem released_absorb (ha : Awaits run w h) (hc : h.engine.Coherent)
    (hl : h.engine.live.get? run = none) (fuel : Nat)
    (hdone : (Host.absorb fuel h).engine.effects = []) : Released w (Host.absorb fuel h) := by
  refine (Attended.absorb (.inr ha) hc fuel).resolve_right fun ha => ?_
  rcases ha.coming with hlive | htold
  · rw [((continues_absorb hc fuel).wanes hc).none hl] at hlive
    cases hlive
  · rw [hdone] at htold
    cases htold

end Campaign.Host
