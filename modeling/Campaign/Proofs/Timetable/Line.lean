import Campaign.Proofs.Agenda
import Campaign.Proofs.Timetable.Incidents
/-!
# The line in which timers stand

A timer that is set stands on the agenda with a task by which its delay begins (`arms`), and then
with one that comes up when its delay is over (`fires`).  As delays begin in the order in which the
timers were set, timers of one moment stand in that order too, as long as none of them change
places: `InLine` says so, and everything that is done to the agenda keeps it.
-/
namespace Campaign.Timetable

namespace Task

/-- The number of a timer whose delay is to begin. -/
def arm? : Task → Option Nat
  | arm number => some number
  | _ => none

/-- The number of a timer whose delay has begun. -/
def fire? : Task → Option Nat
  | fire number => some number
  | _ => none

/-- The label of an entry that goes on. -/
def close? : Task → Option String
  | close label => some label
  | _ => none

end Task

/-- The timers whose delay is to begin, the first first. -/
def arms (g : Agenda Task) : List Nat := g.tasks.filterMap Task.arm?

/-- The timers whose delay has begun, each with the moment at which it is over, the first first. -/
def fires (g : Agenda Task) : List (Int × Nat) := g.chosen Task.fire?

/-- The entries that go on, each with the moment at which it comes to its end. -/
def closes (g : Agenda Task) : List (Int × String) := g.chosen Task.close?

/-- Whether timers stand in line on an agenda, all with numbers below the next. -/
structure InLine (steady : Prop) (g : Agenda Task) (next : Nat) : Prop where
  punctual : g.Punctual
  /-- A delay begins before time passes. -/
  posted : ∀ x ∈ g.deferred, x.2.arm? = none
  armed : (arms g).Pairwise (· < ·)
  bounded : ∀ n ∈ arms g, n < next
  ordered : (fires g).Pairwise fun x y => Earlier steady x y ∧ x.2 ≠ y.2
  /-- The timers whose delay has begun were set before the others. -/
  begun : ∀ x ∈ fires g, x.2 < next ∧ ∀ n ∈ arms g, x.2 < n

variable {steady : Prop} {g g' : Agenda Task} {task : Task} {next n : Nat}

theorem arms_post : arms (g.post task) = arms g ++ task.arm?.toList := by
  cases h : task.arm? <;> simp [arms, List.filterMap_append, h]

theorem arms_putOff (h : task.arm? = none) (micros : Int) :
    arms (g.putOff micros task) = arms g := by
  by_cases hm : micros ≤ 0
  · rw [Agenda.putOff_of_nonpos hm, arms_post, h]
    simp
  · rw [arms, Agenda.tasks_putOff (Int.not_le.1 hm), arms]

theorem arms_of_perform (h : g.next = .perform task g') :
    arms g = task.arm?.toList ++ arms g' := by
  rw [arms, (Agenda.of_next_perform h).2.1, List.filterMap_cons]
  cases task.arm? <;> rfl

theorem fires_of_perform (h : g.next = .perform task g') :
    fires g = (task.fire?.map (g.now, ·)).toList ++ fires g' :=
  Agenda.chosen_of_perform h Task.fire?

theorem mem_fires_putOff {delay : Int} (hd : 0 < delay) (hp : g.Punctual) {x : Int × Nat} :
    x ∈ fires (g.putOff delay (.fire n)) ↔ x = (g.now + delay, n) ∨ x ∈ fires g :=
  Agenda.mem_chosen_putOff (f := Task.fire?) hd hp rfl

namespace InLine

theorem empty (now : Int) (next : Nat) : InLine steady { now } next :=
  ⟨⟨.nil, by simp⟩, by simp [Agenda.deferred], .nil, by simp [arms, Agenda.tasks], .nil,
    by simp [fires, Agenda.chosen, Agenda.upcoming, Agenda.tasks, Agenda.deferred]⟩

/-- A timer is set. -/
theorem post (h : InLine steady g next) : InLine steady (g.post (.arm next)) (next + 1) := by
  have harms : arms (g.post (.arm next)) = arms g ++ [next] := arms_post
  have hfires : fires (g.post (.arm next)) = fires g :=
    Agenda.chosen_post_of_none rfl
  refine ⟨h.punctual.post _, by simpa using h.posted, ?_, fun n hn => ?_, ?_, fun x hx => ?_⟩
  · rw [harms]
    refine List.pairwise_append.2 ⟨h.armed, List.pairwise_singleton _ _, fun n hn m hm => ?_⟩
    rw [List.mem_singleton.1 hm]
    exact h.bounded n hn
  · rw [harms] at hn
    rcases List.mem_append.1 hn with hn | hn
    · exact Nat.lt_succ_of_lt (h.bounded n hn)
    · rw [List.mem_singleton.1 hn]
      exact Nat.lt_succ_self next
  · rw [hfires]
    exact h.ordered
  · rw [hfires] at hx
    obtain ⟨hnext, hbegun⟩ := h.begun x hx
    refine ⟨Nat.lt_succ_of_lt hnext, fun n hn => ?_⟩
    rw [harms] at hn
    rcases List.mem_append.1 hn with hn | hn
    · exact hbegun n hn
    · rw [List.mem_singleton.1 hn]
      exact hnext

/-- A task that is about no timer is put off. -/
theorem putOff (h : InLine steady g next) (ha : task.arm? = none) (hf : task.fire? = none)
    (micros : Int) : InLine steady (g.putOff micros task) next := by
  have harms := arms_putOff (g := g) ha micros
  have hfires : fires (g.putOff micros task) = fires g :=
    Agenda.chosen_putOff_of_none h.punctual hf micros
  refine ⟨h.punctual.putOff micros task, fun x hx => ?_, harms ▸ h.armed, harms ▸ h.bounded,
    hfires ▸ h.ordered, ?_⟩
  · rcases Agenda.mem_deferred_putOff h.punctual hx with hx | hx
    · exact h.posted x hx
    · rw [hx]
      exact ha
  · rw [hfires, harms]
    exact h.begun

/-- The first task is taken off the agenda. -/
theorem perform (h : InLine steady g next) (hn : g.next = .perform task g') :
    InLine steady g' next := by
  have harms := arms_of_perform hn
  have hfires := fires_of_perform hn
  have harm : ∀ n ∈ arms g', n ∈ arms g := fun n hm => by
    rw [harms]
    exact List.mem_append_right _ hm
  refine ⟨h.punctual.perform hn, ?_, ?_, fun n hm => h.bounded n (harm n hm), ?_, fun x hx => ?_⟩
  · rw [(Agenda.of_next_perform hn).2.2.1]
    exact h.posted
  · exact (List.pairwise_append.1 (harms ▸ h.armed)).2.1
  · exact (List.pairwise_append.1 (hfires ▸ h.ordered)).2.1
  · have hmem : x ∈ fires g := by
      rw [hfires]
      exact List.mem_append_right _ hx
    exact ⟨(h.begun x hmem).1, fun n hm => (h.begun x hmem).2 n (harm n hm)⟩

/-- A timer that comes behind all that are due no later, and was set after all that stand in line,
comes in its turn. -/
theorem ordered_putOff (h : InLine steady g next) (hn : ∀ x ∈ fires g, x.2 < n) {delay : Int}
    (hd : 0 < delay) :
    (fires (g.putOff delay (.fire n))).Pairwise fun x y => Earlier steady x y ∧ x.2 ≠ y.2 := by
  obtain ⟨before, after, heq, hputOff, hle, hlt⟩ :=
    Agenda.chosen_putOff (f := Task.fire?) (a := .fire n) hd h.punctual rfl
  have hordered := h.ordered
  rw [fires, heq] at hordered hn
  rw [fires, hputOff]
  obtain ⟨hbefore, hafter, hcross⟩ := List.pairwise_append.1 hordered
  refine List.pairwise_append.2 ⟨hbefore, List.pairwise_cons.2 ⟨fun y hy => ?_, hafter⟩, ?_⟩
  · exact ⟨.inl (hlt y hy), Nat.ne_of_gt (hn y (List.mem_append_right _ hy))⟩
  · intro x hx y hy
    rcases List.mem_cons.1 hy with rfl | hy
    · have hnumber := hn x (List.mem_append_left _ hx)
      refine ⟨?_, Nat.ne_of_lt hnumber⟩
      -- of two timers of one moment the number decides
      rcases Int.lt_or_eq_of_le (hle x hx) with hlt | heq
      · exact .inl hlt
      · exact .inr ⟨heq, fun _ => hnumber⟩
    · exact hcross x hx y hy

/-- The delay of the first timer whose delay is to begin is begun. -/
theorem begin (h : InLine steady g next) (hn : g.next = .perform (.arm n) g') {delay : Int}
    (hd : 0 < delay) : InLine steady (g'.putOff delay (.fire n)) next := by
  have h' := h.perform hn
  have hcons : arms g = n :: arms g' := arms_of_perform hn
  have harms : arms (g'.putOff delay (.fire n)) = arms g' := arms_putOff rfl _
  have hbefore : ∀ x ∈ fires g', x.2 < n := by
    have hsame : fires g = fires g' := fires_of_perform hn
    exact fun x hx => (h.begun x (hsame ▸ hx)).2 n (by simp [hcons])
  refine ⟨h'.punctual.putOff delay _, fun x hx => ?_, harms ▸ h'.armed, harms ▸ h'.bounded,
    h'.ordered_putOff hbefore hd, fun x hx => ?_⟩
  · rcases Agenda.mem_deferred_putOff h'.punctual hx with hx | hx
    · exact h'.posted x hx
    · rw [hx]
      rfl
  · rw [harms]
    rcases (mem_fires_putOff hd h'.punctual).1 hx with rfl | hx
    · exact ⟨h.bounded n (by simp [hcons]), (List.pairwise_cons.1 (hcons ▸ h.armed)).1⟩
    · exact h'.begun x hx

/-- While time passes no delay is to begin. -/
theorem arms_of_pass (h : InLine steady g next) (hn : g.next = .pass g') :
    arms g' = arms g ∧ (g'.now = g.now ∨ arms g = []) := by
  rcases Agenda.pass_cases h.punctual hn with ⟨a, hnow, htasks, hdeferred⟩ | ⟨ht, ht', -⟩
  · have ha : a.arm? = none := h.posted (g.now, a) (by simp [hdeferred])
    refine ⟨?_, .inl hnow⟩
    simp [arms, htasks, List.filterMap_append, ha]
  · simp [arms, ht, ht']

/-- An alarm rings, or time passes. -/
theorem pass (h : InLine steady g next) (hn : g.next = .pass g') : InLine steady g' next := by
  have harms := (h.arms_of_pass hn).1
  have hfires : fires g' = fires g := Agenda.chosen_of_pass h.punctual hn _
  refine ⟨h.punctual.pass hn, fun x hx => ?_, harms ▸ h.armed, harms ▸ h.bounded,
    hfires ▸ h.ordered, ?_⟩
  · refine h.posted x ?_
    rcases Agenda.pass_cases h.punctual hn with ⟨a, -, -, hdeferred⟩ | ⟨-, -, hdeferred⟩
    · rw [hdeferred]
      exact List.mem_cons_of_mem _ hx
    · rwa [← hdeferred]
  · rw [hfires, harms]
    exact h.begun

/-- Alarms of one moment change places, which a steady worker never has them do. -/
theorem exchange (h : InLine steady g next) (hs : ¬ steady) (n : Nat) :
    InLine steady (g.exchange n) next := by
  have hfires : (fires (g.exchange n)).Perm (fires g) := Agenda.chosen_exchange _ g n
  have hpunctual := h.punctual.exchange n
  have hdistinct : (fires (g.exchange n)).Pairwise fun x y => x.2 ≠ y.2 :=
    (hfires.pairwise_iff fun hne => hne.symm).2 (h.ordered.imp And.right)
  refine ⟨hpunctual, fun x hx => h.posted x ((Agenda.deferred_exchange n).subset hx), h.armed,
    h.bounded, ?_, fun x hx => h.begun x (hfires.subset hx)⟩
  refine ((hpunctual.ordered_chosen Task.fire?).and hdistinct).imp fun ⟨hle, hne⟩ => ⟨?_, hne⟩
  rcases Int.lt_or_eq_of_le hle with hlt | heq
  · exact .inl hlt
  · exact .inr ⟨heq, fun hsteady => absurd hsteady hs⟩

end InLine

end Campaign.Timetable
