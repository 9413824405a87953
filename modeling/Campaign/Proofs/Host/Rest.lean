import Campaign.Proofs.Host.Budget
import Campaign.Proofs.Host.Released
/-!
# A host comes to rest

Nothing is put on the agenda for a client as long as nobody waits for a run; so the turn for which a
client asks is the only wish there (`Host.Alone`), and all else comes up on the way to it.  A client
that gives the others their turn again and again therefore comes to a host where nothing is ready:
`rests_settle` and `rests_advance` say that to settle, and to let time pass, is never cut short.
-/
namespace Campaign

/-- Whether a task is a client's. -/
def Job.isWish : Job → Bool
  | .wish _ => true
  | _ => false

namespace Host

variable {h h' : Host} {n : Nat} {effect : Effect} {rest : List Effect} {job : Job}
  {g : Agenda Job}

/-- How many wishes stand on the agenda. -/
def wishes (h : Host) : Nat := h.agenda.held.countP Job.isWish

/-- A host at which nobody waits for a run, with no more than some wishes on its agenda. -/
structure Alone (n : Nat) (h : Host) : Prop where
  coherent : h.engine.Coherent
  awaited : h.awaited = none
  wishes : h.wishes ≤ n

/-! ## Wishes on the agenda -/

theorem wishes_post (h : Host) (job : Job) :
    (h.post job).wishes = h.wishes + if job.isWish then 1 else 0 := by
  rw [wishes, post, (Agenda.held_post h.agenda job).countP_eq, List.countP_cons, wishes]

theorem wishes_putOff (h : Host) (micros : Int) (job : Job) :
    ({ h with agenda := h.agenda.putOff micros job } : Host).wishes =
      h.wishes + if job.isWish then 1 else 0 := by
  rw [wishes, (Agenda.held_putOff h.agenda micros job).countP_eq, List.countP_cons, wishes]

theorem wishes_of_perform (hnext : h.agenda.next = .perform job g) :
    h.wishes = ({ h with agenda := g } : Host).wishes + if job.isWish then 1 else 0 := by
  rw [wishes, Agenda.held_of_perform hnext, List.countP_cons, wishes]

theorem wishes_deliver (h : Host) (ticket : Nat) (m : Message) :
    (h.deliver ticket m).1.wishes = h.wishes := by
  unfold deliver
  generalize h.sender.take h.now m = taken
  obtain ⟨sender, ⟨cancels, delay, outcome⟩, notices⟩ := taken
  cases cancels <;> cases delay
  case none.none => rfl
  case some.none => rfl
  all_goals exact wishes_putOff _ _ _

/-- A host at which nobody waits puts nothing on the agenda for a client. -/
theorem serve_alone (ha : h.awaited = none) (effect : Effect) :
    (h.serve effect).awaited = none ∧ (h.serve effect).wishes = h.wishes := by
  cases effect with
  | begin run => exact ⟨ha, wishes_post h _⟩
  | arm timer ms => exact ⟨ha, wishes_post h _⟩
  | ended run => simp [serve, ha]
  | send ticket m =>
    have hwishes := h.wishes_deliver ticket m
    have hawaited := (h.deliver_outside ticket m).1
    simp only [serve]
    split <;> rename_i heq <;> rw [heq] at hwishes hawaited <;>
      exact ⟨hawaited.trans ha, hwishes⟩

theorem alone_create (sender : Sender) (now : Int) : Alone 0 (create sender now) :=
  ⟨Engine.coherent_idle _, rfl, Nat.le_refl _⟩

namespace Alone

theorem served (ha : Alone n h) (he : h.engine.effects = effect :: rest) :
    Alone n (h.served effect rest) := by
  obtain ⟨hawaited, hwishes⟩ := serve_alone (h := h.cleared) ha.awaited effect
  exact ⟨(continues_served ha.coherent he).coherent ha.coherent, hawaited,
    (Nat.le_of_eq hwishes).trans ha.wishes⟩

theorem act (ha : Alone n h) (now : Int) {t : Turn} (hadm : t.Admitted h.engine) :
    Alone n (h.act fun e => e.take now t) := by
  have hturn : Alone n (h.turn fun e => e.take now t) :=
    ⟨Engine.coherent_take ha.coherent now hadm, ha.awaited, ha.wishes⟩
  exact kept_absorb (fun _ _ _ ha he => ha.served he) hturn _

theorem perform (ha : Alone n h) (hp : h.perform job = some h') : Alone n h' := by
  cases carried_of_perform hp with
  | @signal _ t s sender ht _ =>
    have houtside : Alone n { h with sender } := ⟨ha.coherent, ha.awaited, ha.wishes⟩
    exact houtside.act h.now (Turn.of_signal ht h.engine).1
  | delay _ =>
    refine ⟨ha.coherent, ha.awaited, ?_⟩
    rw [wishes_putOff]
    exact ha.wishes
  | gone _ => exact ha

/-- A task is taken off the agenda. -/
theorem popped (ha : Alone n h) (hnext : h.agenda.next = .perform job g) :
    Alone n { h with agenda := g } := by
  refine ⟨ha.coherent, ha.awaited, Nat.le_trans ?_ ha.wishes⟩
  rw [wishes_of_perform hnext]
  exact Nat.le_add_right _ _

/-- A wish is taken off the agenda. -/
theorem handed {w : Wish} (ha : Alone (n + 1) h) (hnext : h.agenda.next = .perform (.wish w) g) :
    Alone n { h with agenda := g } := by
  have hwishes := ha.wishes
  rw [wishes_of_perform hnext] at hwishes
  exact ⟨ha.coherent, ha.awaited, Nat.le_of_succ_le_succ hwishes⟩

theorem goes (ha : Alone n h) (hg : worker.Goes h h') : Alone n h' := by
  cases hg with
  | perform hnext hp => exact (ha.popped hnext).perform hp
  | @pass g hnext =>
    refine ⟨ha.coherent, ha.awaited, Nat.le_trans (Nat.le_of_eq ?_) ha.wishes⟩
    exact congrArg (List.countP Job.isWish) (Agenda.held_of_pass hnext)

theorem of_nothing (ha : Alone n h) (hnext : h.agenda.next = .nothing) : Alone 0 h := by
  refine ⟨ha.coherent, ha.awaited, ?_⟩
  rw [Host.wishes, Agenda.held_of_nothing hnext]
  exact Nat.le_refl _

/-- The turn of a client is put on the agenda. -/
theorem post (ha : Alone n h) (w : Wish) : Alone (n + 1) (h.post (.wish w)) := by
  refine ⟨ha.coherent, ha.awaited, ?_⟩
  rw [wishes_post]
  exact Nat.succ_le_succ ha.wishes

end Alone

/-! ## Working for one turn -/

/-- **A client is given its turn, or there is nothing left to do.**  If the turn is not the very
next thing, something is done before it. -/
theorem work_alone (ha : Alone 1 h) : Alone 0 h.work.1 ∧ (h.work.1.agenda.next = .nothing ∨
    h.work.1.budget + 1 < h.budget ∨ ∃ w g, h.agenda.next = .perform (.wish w) g) := by
  obtain ⟨h₁, ⟨ha₁, hless⟩, hstop | ⟨job, g, hnext, hp, hhand⟩⟩ :=
    Worker.workFor_cases (w := worker) (s := h)
      (p := fun h₁ => Alone 1 h₁ ∧ (h₁ = h ∨ h₁.budget < h.budget)) (fun h₁ h₂ hk hg => by
        have hcost := (budget_goes hk.1.coherent hg).2
        refine ⟨hk.1.goes hg, .inr ?_⟩
        rcases hk.2 with rfl | hless
        · exact hcost
        · exact hcost.trans hless) h.budget ⟨ha, .inl rfl⟩
  · have hwork : h.work = (h₁, none) := hstop
    have hnothing := next_of_work ha.coherent hwork
    rw [hwork]
    exact ⟨ha₁.of_nothing hnothing, .inl hnothing⟩
  · have hwork : h.work = ({ h₁ with agenda := g }, some job) := hhand
    obtain ⟨w, rfl⟩ := wish_of_perform hp
    rw [hwork]
    refine ⟨ha₁.handed hnext, .inr ?_⟩
    rcases hless with rfl | hless
    · exact .inr ⟨w, g, hnext⟩
    · have hpaid : ({ h₁ with agenda := g } : Host).budget + (Job.wish w).weight = h₁.budget :=
        budget_of_perform hnext
      have hpos := (Job.wish w).weight_pos
      refine .inl ?_
      change ({ h₁ with agenda := g } : Host).budget + 1 < h.budget
      omega

/-- A turn that is put behind something ready is not the very next thing. -/
theorem next_post_ne (ha : Alone 0 h) (hidle : h.agenda.idle = false) (w w' : Wish) :
    (h.post (.wish w)).agenda.next ≠ .perform (.wish w') g := by
  intro hnext
  cases hready : h.agenda.ready with
  | nil => simp [Agenda.idle, hready] at hidle
  | cons x xs =>
    cases x with
    | ring job => simp [post, Agenda.post, Agenda.next, hready] at hnext
    | task job =>
      obtain rfl : job = .wish w' := by
        simp only [post, Agenda.post, Agenda.next, hready, List.cons_append] at hnext
        cases hnext
        rfl
      have hheld : Job.wish w' ∈ h.agenda.held :=
        Agenda.holds_iff.2 (.inl (hready ▸ List.mem_cons_self))
      have hnone := List.countP_eq_zero.1 (Nat.le_zero.1 ha.wishes) _ hheld
      exact hnone rfl

/-! ## Coming to rest -/

theorem idle_of_nothing (hnext : h.agenda.next = .nothing) : h.agenda.idle = true := by
  unfold Agenda.next at hnext
  split at hnext <;> cases hnext
  rename_i hready _
  simp [Agenda.idle, hready]

theorem settleFor_of_idle (hidle : h.agenda.idle = true) (fuel : Nat) :
    worker.settleFor fuel h = h := by
  cases fuel with
  | zero => rfl
  | succ fuel => exact if_pos hidle

theorem rests_settleFor (ha : Alone 0 h) {fuel : Nat} (hf : h.budget ≤ fuel) :
    Alone 0 (worker.settleFor fuel h) ∧ (worker.settleFor fuel h).agenda.idle = true := by
  induction fuel generalizing h with
  | zero => exact ⟨ha, idle_of_nothing (next_of_budget (Nat.le_zero.1 hf))⟩
  | succ fuel ih =>
    cases hidle : h.agenda.idle with
    | true =>
      rw [settleFor_of_idle hidle]
      exact ⟨ha, hidle⟩
    | false =>
      have hstep : worker.settleFor (fuel + 1) h =
          worker.settleFor fuel (h.post (.wish .turn)).work.1 :=
        if_neg (by simpa [worker] using hidle)
      obtain ⟨ha', hnothing | hless | ⟨w, g, hnext⟩⟩ := work_alone (ha.post .turn)
      · have hrests := idle_of_nothing hnothing
        rw [hstep, settleFor_of_idle hrests]
        exact ⟨ha', hrests⟩
      · rw [budget_post, Wish.weight] at hless
        rw [hstep]
        exact ih ha' (by omega)
      · exact absurd hnext (next_post_ne ha hidle .turn w)

/-- What is struck out of the agenda of timers that are gone is no wish, and was not ready. -/
theorem rests_purge (ha : Alone 0 h) (hidle : h.agenda.idle = true) :
    Alone 0 h.purge ∧ h.purge.agenda.idle = true := by
  refine ⟨⟨ha.coherent, ha.awaited, Nat.le_trans ?_ ha.wishes⟩, hidle⟩
  have hfewer : (h.purge.agenda.alarms.map Alarm.task).Sublist (h.agenda.alarms.map Alarm.task) :=
    List.filter_sublist.map _
  rw [wishes, wishes, Agenda.held_eq, Agenda.held_eq]
  exact ((hfewer.append_left _).append_left _).countP_le

/-- **To settle is to come to rest**: nothing is ready then, and nothing stands on the agenda for a
client. -/
theorem rests_settle (ha : Alone 0 h) : Alone 0 h.settle ∧ h.settle.agenda.idle = true := by
  obtain ⟨hrests, hidle⟩ := rests_settleFor ha (Nat.le_refl _)
  exact rests_purge hrests hidle

/-- **To let time pass is to come to rest.** -/
theorem rests_advance (ha : Alone 0 h) (micros : Int) :
    Alone 0 (h.advance micros) ∧ (h.advance micros).agenda.idle = true := by
  have hasleep : Alone 1 { h with agenda := h.agenda.putOff micros (.wish .turn) } := by
    refine ⟨ha.coherent, ha.awaited, ?_⟩
    rw [wishes_putOff]
    exact Nat.succ_le_succ ha.wishes
  obtain ⟨hrests, hidle⟩ := rests_settleFor (work_alone hasleep).1 (Nat.le_refl _)
  exact rests_purge hrests hidle

end Host

end Campaign
