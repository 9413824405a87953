import Campaign.Proofs.Engine.Worth
import Campaign.Proofs.Host.Progress
/-!
# What a host does comes to an end

Whatever a host does for its engine lowers what the engine is worth, by more than what it puts on
the agenda weighs (`worth_served`, `weight_serve`).  So a host that does as many things as its
engine is worth has done all that was wanted (`effects_absorb`), and one that works as long as its
budget says stops only where there is nothing left to do (`next_of_work`).
-/
namespace Campaign

theorem Wish.weight_le (w : Wish) : w.weight ≤ 4 := by
  cases w <;> decide

theorem Job.weight_pos (job : Job) : 0 < job.weight := by
  cases job with
  | wish w => cases w <;> exact Nat.zero_lt_succ _
  | _ => exact Nat.zero_lt_succ _

namespace Host

variable {h h' : Host} {effect : Effect} {rest : List Effect} {job : Job} {g : Agenda Job}

/-! ## Serving the engine -/

theorem kept_worth (n : Nat) : Kept fun h => h.engine.Coherent ∧ h.engine.worth ≤ n where
  turn := fun _ now _ hp ha hs hserved => ⟨Engine.coherent_take hp.1 now ha,
    (Engine.worth_take hp.1 now ha hs hserved).trans hp.2⟩
  outside := fun _ _ _ _ hp _ => hp

theorem worth_serve (hc : h.engine.Coherent) (effect : Effect) :
    (h.serve effect).engine.worth ≤ h.engine.worth := by
  refine ((kept_worth h.engine.worth).serve ⟨hc, Nat.le_refl _⟩ fun run heq => ?_).2
  rw [heq, serve_ended_engine]
  exact ⟨hc, Nat.le_refl _⟩

/-- **To do a thing that the engine wants lowers what it is worth.** -/
theorem worth_served (hc : h.engine.Coherent) (he : h.engine.effects = effect :: rest) :
    (h.served effect rest).engine.worth < h.engine.worth := by
  have hcleared : h.cleared.engine.worth + h.engine.effects.length = h.engine.worth + 0 :=
    Engine.worth_put h.engine []
  have hserve := worth_serve (coherent_cleared hc) effect
  have hrest : (h.served effect rest).engine.worth +
      (h.cleared.serve effect).engine.effects.length =
        (h.cleared.serve effect).engine.worth +
          ((h.cleared.serve effect).engine.effects ++ rest).length :=
    Engine.worth_put _ _
  rw [List.length_append] at hrest
  rw [he, List.length_cons] at hcleared
  omega

/-- **Enough fuel serves all that the engine wants.** -/
theorem effects_absorb (hc : h.engine.Coherent) {fuel : Nat} (hf : h.engine.worth ≤ fuel) :
    (absorb fuel h).engine.effects = [] := by
  induction fuel generalizing h with
  | zero =>
    have hlength : h.engine.effects.length ≤ h.engine.worth := by
      have hput := Engine.worth_put h.engine []
      rw [List.length_nil] at hput
      omega
    exact List.eq_nil_of_length_eq_zero (Nat.le_zero.1 (hlength.trans hf))
  | succ fuel ih =>
    cases he : h.engine.effects with
    | nil => rw [absorb_of_nil he, he]
    | cons effect rest =>
      have hless := worth_served hc he
      rw [absorb_of_cons he]
      exact ih ((continues_served hc he).coherent hc) (by omega)

theorem effects_oblige (hc : h.engine.Coherent) : h.oblige.engine.effects = [] :=
  effects_absorb hc (Nat.le_refl _)

/-! ## What is put on the agenda -/

theorem weight_deliver (h : Host) (ticket : Nat) (m : Message) :
    (h.deliver ticket m).1.agenda.weight Job.weight ≤ h.agenda.weight Job.weight + 3 := by
  unfold deliver
  generalize h.sender.take h.now m = taken
  obtain ⟨sender, ⟨cancels, delay, outcome⟩, notices⟩ := taken
  cases cancels <;> cases delay
  case none.none => exact Nat.le_add_right _ _
  case some.none => exact Nat.le_add_right _ _
  all_goals exact Agenda.weight_putOff_le Job.weight _

theorem weight_serve (h : Host) (effect : Effect) :
    (h.serve effect).agenda.weight Job.weight ≤ h.agenda.weight Job.weight + 4 := by
  cases effect with
  | begin run =>
    rw [serve, post, Agenda.weight_post, Job.weight]
    omega
  | arm timer ms =>
    rw [serve, post, Agenda.weight_post]
    exact Nat.le_refl _
  | ended run =>
    simp only [serve]
    split
    · rename_i wish heq
      split
      · rw [post, Agenda.weight_post]
        exact Nat.add_le_add_left (Wish.weight_le wish) _
      · exact Nat.le_add_right _ _
    · exact Nat.le_add_right _ _
  | send ticket m =>
    have hdelivered := weight_deliver h ticket m
    simp only [serve]
    split <;> rename_i heq <;> rw [heq] at hdelivered <;>
      exact hdelivered.trans (Nat.add_le_add_left (by decide) _)

theorem budget_eq (h : Host) : h.budget = 5 * h.engine.worth + h.agenda.weight Job.weight := by
  rw [budget]

theorem budget_served (hc : h.engine.Coherent) (he : h.engine.effects = effect :: rest) :
    (h.served effect rest).budget ≤ h.budget := by
  have hworth := worth_served hc he
  have hweight : (h.served effect rest).agenda.weight Job.weight ≤
      h.agenda.weight Job.weight + 4 :=
    weight_serve { h with engine := { h.engine with effects := [] } } effect
  rw [budget_eq, budget_eq]
  omega

theorem budget_absorb (hc : h.engine.Coherent) (fuel : Nat) :
    (absorb fuel h).budget ≤ h.budget := by
  refine (kept_absorb (P := fun h' => h'.engine.Coherent ∧ h'.budget ≤ h.budget) ?_
    ⟨hc, Nat.le_refl _⟩ fuel).2
  rintro h' effect rest ⟨hc', hb⟩ he
  exact ⟨(continues_served hc' he).coherent hc', (budget_served hc' he).trans hb⟩

/-! ## Tasks -/

/-- A turn that brings a signal, and all that is wanted then. -/
theorem budget_act (hc : h.engine.Coherent) (now : Int) {t : Turn} (ha : t.Admitted h.engine)
    (hs : ¬ t.Starts) (hserved : ∀ effects, t ≠ .served effects) :
    (h.act fun e => e.take now t).budget ≤ h.budget := by
  have hworth := Engine.worth_take hc now ha hs hserved
  have hturn : (h.turn fun e => e.take now t).budget ≤ h.budget := by
    rw [budget_eq, budget_eq]
    exact Nat.add_le_add_right (Nat.mul_le_mul_left 5 hworth) _
  exact (budget_absorb (h := h.turn fun e => e.take now t) (Engine.coherent_take hc now ha) _).trans
    hturn

/-- **To carry out a task costs something of what it weighs.** -/
theorem budget_perform (hc : h.engine.Coherent) (hp : h.perform job = some h') :
    h'.budget < h.budget + job.weight := by
  have hpos := job.weight_pos
  cases carried_of_perform hp with
  | @signal _ t s sender ht _ =>
    obtain ⟨ha, hs, hserved⟩ := Turn.of_signal ht h.engine
    have hact := budget_act (h := { h with sender }) hc h.now ha hs hserved
    have hsender : ({ h with sender } : Host).budget = h.budget := by rw [budget_eq, budget_eq]
    omega
  | @delay timer ms _ =>
    have hweight := Agenda.weight_putOff_le (g := h.agenda) (a := Job.fire timer) Job.weight
      (ms * 1000)
    rw [budget_eq, budget_eq]
    simp only [Job.weight] at hweight ⊢
    omega
  | gone _ => exact Nat.lt_add_of_pos_right hpos

theorem budget_of_perform (hnext : h.agenda.next = .perform job g) :
    ({ h with agenda := g } : Host).budget + job.weight = h.budget := by
  have hweight := Agenda.weight_of_perform Job.weight hnext
  rw [budget_eq, budget_eq]
  simp only
  omega

theorem budget_of_pass (hnext : h.agenda.next = .pass g) :
    ({ h with agenda := g } : Host).budget < h.budget := by
  have hweight := Agenda.weight_of_pass Job.weight hnext
  rw [budget_eq, budget_eq]
  exact Nat.add_lt_add_left hweight _

theorem budget_post (h : Host) (w : Wish) : (h.post (.wish w)).budget = h.budget + w.weight := by
  rw [budget_eq, budget_eq, post, Agenda.weight_post, Job.weight, Nat.add_assoc]

/-- Where there is something to do there is a budget for it. -/
theorem next_of_budget (hb : h.budget = 0) : h.agenda.next = .nothing := by
  cases hnext : h.agenda.next with
  | perform job g =>
    have hperform := budget_of_perform hnext
    have hpos := Job.weight_pos job
    omega
  | pass g =>
    have hpass := budget_of_pass hnext
    omega
  | nothing => rfl

/-- Whatever a worker does on its own costs something. -/
theorem budget_goes (hc : h.engine.Coherent) (hg : worker.Goes h h') :
    h'.engine.Coherent ∧ h'.budget < h.budget := by
  cases hg with
  | @perform job g _ hnext hp =>
    have hrest : ({ h with agenda := g } : Host).budget + job.weight = h.budget :=
      budget_of_perform hnext
    have hcoherent : ({ h with agenda := g } : Host).engine.Coherent := hc
    have hless := budget_perform hcoherent hp
    exact ⟨(continues_perform hcoherent hp).coherent hcoherent, by omega⟩
  | pass hnext => exact ⟨hc, budget_of_pass hnext⟩

/-- **A worker stops only where there is nothing left to do.** -/
theorem next_of_work (hc : h.engine.Coherent) (hstop : h.work = (h', none)) :
    h'.agenda.next = .nothing :=
  Worker.next_of_workFor (w := worker) (fun _ _ hc hg => budget_goes hc hg)
    (fun _ _ hb => next_of_budget hb) hc (Nat.le_refl _) hstop

end Host

end Campaign
