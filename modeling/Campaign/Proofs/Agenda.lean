import Campaign.Agenda
import Mathlib.Algebra.Order.BigOperators.Group.List
import Mathlib.Algebra.Order.Ring.Nat
/-!
# What is upcoming on an agenda

`Agenda.upcoming` lists what is still to be done, each task with the moment at which it will be
ready, in the order in which the worker comes to it: first what was posted, then what is ringing,
then the alarms.  To go on with an agenda is to take the first of this list; alarms that ring and
time that passes leave the list as it is (`upcoming_of_pass`).

* `upcoming_post` and `upcoming_putOff` say where a task comes into the list;
* `Agenda.Punctual` says that alarms are in order and yet to come; every operation keeps it, and
  what is upcoming is then in the order of the moments (`Punctual.ordered_upcoming`);
* alarms of one moment that change places leave the list as it is but for its order
  (`upcoming_exchange`);
* `Agenda.chosen` are the tasks of one kind, in the order in which they come up;
* `Agenda.held` are the tasks without their moments: what is posted or put off is one more of them,
  and to go on takes the first;
* `weight_post`, `weight_putOff_le` and their like say how the weight of an agenda changes.
-/
namespace Campaign

variable {α : Type}

/-- The task of something ready, if it is one. -/
def Ready.task? : Ready α → Option α
  | .task a => some a
  | .ring _ => none

/-- The task of an alarm that is ringing, if it is one. -/
def Ready.ring? : Ready α → Option α
  | .task _ => none
  | .ring a => some a

namespace Agenda

variable {g g' : Agenda α} {a : α}

/-- The tasks that were posted. -/
def tasks (g : Agenda α) : List α := g.ready.filterMap Ready.task?

/-- The tasks that were put off, each with the moment at which it will be posted. -/
def deferred (g : Agenda α) : List (Int × α) :=
  (g.ready.filterMap Ready.ring?).map (g.now, ·) ++ g.alarms.map fun b => (b.due, b.task)

/-- All that is to be done, each with the moment at which it will be ready, the first first. -/
def upcoming (g : Agenda α) : List (Int × α) := g.tasks.map (g.now, ·) ++ g.deferred

/-- Whether a task is to be done. -/
def Holds (g : Agenda α) (a : α) : Prop := a ∈ g.upcoming.map Prod.snd

/-- The alarms are in order, and their moments are yet to come. -/
structure Punctual (g : Agenda α) : Prop where
  ordered : g.alarms.Pairwise fun a b => a.due ≤ b.due
  later : ∀ b ∈ g.alarms, g.now < b.due

/-! ## Posting -/

@[simp] theorem now_post : (g.post a).now = g.now := rfl

@[simp] theorem tasks_post : (g.post a).tasks = g.tasks ++ [a] := by
  simp [tasks, post, Ready.task?]

@[simp] theorem deferred_post : (g.post a).deferred = g.deferred := by
  simp [deferred, post, Ready.ring?]

theorem upcoming_post :
    (g.post a).upcoming = g.tasks.map (g.now, ·) ++ (g.now, a) :: g.deferred := by
  simp [upcoming]

theorem Punctual.post (h : g.Punctual) (a : α) : (g.post a).Punctual := ⟨h.ordered, h.later⟩

/-! ## Putting off -/

/-- Where an alarm is inserted among others that are in order. -/
theorem exists_insert (b : Alarm α) {l : List (Alarm α)}
    (h : l.Pairwise fun a b => a.due ≤ b.due) : ∃ before after,
      l = before ++ after ∧ insert b l = before ++ b :: after ∧ (∀ c ∈ before, c.due ≤ b.due) ∧
        ∀ c ∈ after, b.due < c.due := by
  induction l with
  | nil => exact ⟨[], [], rfl, rfl, by simp, by simp⟩
  | cons c l ih =>
    obtain ⟨hc, hl⟩ := List.pairwise_cons.1 h
    by_cases hle : c.due ≤ b.due
    · obtain ⟨before, after, rfl, hins, hbefore, hafter⟩ := ih hl
      refine ⟨c :: before, after, rfl, by simp [insert, hle, hins], ?_, hafter⟩
      exact fun d hd => (List.mem_cons.1 hd).elim (fun he => he ▸ hle) (hbefore d)
    · refine ⟨[], c :: l, rfl, by simp [insert, hle], by simp, fun d hd => ?_⟩
      rcases List.mem_cons.1 hd with rfl | hd
      · exact Int.not_le.1 hle
      · exact Int.lt_of_lt_of_le (Int.not_le.1 hle) (hc d hd)

theorem perm_insert (b : Alarm α) (l : List (Alarm α)) : (insert b l).Perm (b :: l) := by
  induction l with
  | nil => exact .refl _
  | cons c l ih =>
    unfold insert
    split
    · exact (ih.cons c).trans (.swap b c l)
    · exact .refl _

theorem putOff_of_nonpos {micros : Int} (h : micros ≤ 0) : g.putOff micros a = g.post a := if_pos h

theorem putOff_of_pos {micros : Int} (h : 0 < micros) :
    g.putOff micros a = { g with alarms := insert ⟨g.now + micros, a⟩ g.alarms } :=
  if_neg (Int.not_le.2 h)

@[simp] theorem now_putOff (micros : Int) : (g.putOff micros a).now = g.now := by
  unfold putOff
  split <;> rfl

theorem tasks_putOff {micros : Int} (h : 0 < micros) : (g.putOff micros a).tasks = g.tasks := by
  rw [putOff_of_pos h]
  rfl

/-- Where a task that is put off comes into the list. -/
theorem deferred_putOff {micros : Int} (h : 0 < micros) (hp : g.Punctual) :
    ∃ before after, g.deferred = before ++ after ∧
      (g.putOff micros a).deferred = before ++ (g.now + micros, a) :: after ∧
      (∀ x ∈ before, x.1 ≤ g.now + micros) ∧ ∀ x ∈ after, g.now + micros < x.1 := by
  obtain ⟨before, after, hl, hins, hbefore, hafter⟩ :=
    exists_insert ⟨g.now + micros, a⟩ hp.ordered
  refine ⟨(g.ready.filterMap Ready.ring?).map (g.now, ·) ++ before.map fun b => (b.due, b.task),
    after.map fun b => (b.due, b.task), ?_, ?_, fun x hx => ?_, fun x hx => ?_⟩
  · simp [deferred, hl]
  · simp [deferred, putOff_of_pos h, hins]
  · rcases List.mem_append.1 hx with hx | hx
    · obtain ⟨b, -, rfl⟩ := List.mem_map.1 hx
      simp only
      omega
    · obtain ⟨b, hb, rfl⟩ := List.mem_map.1 hx
      exact hbefore b hb
  · obtain ⟨b, hb, rfl⟩ := List.mem_map.1 hx
    exact hafter b hb

theorem mem_deferred_putOff {micros : Int} (hp : g.Punctual) {x : Int × α}
    (hx : x ∈ (g.putOff micros a).deferred) : x ∈ g.deferred ∨ x.2 = a := by
  by_cases h : micros ≤ 0
  · rw [putOff_of_nonpos h, deferred_post] at hx
    exact .inl hx
  · obtain ⟨before, after, heq, hputOff, -⟩ := deferred_putOff (a := a) (Int.not_le.1 h) hp
    rw [hputOff, List.mem_append, List.mem_cons] at hx
    rw [heq, List.mem_append]
    rcases hx with hx | rfl | hx
    · exact .inl (.inl hx)
    · exact .inr rfl
    · exact .inl (.inr hx)

theorem Punctual.putOff (hp : g.Punctual) (micros : Int) (a : α) :
    (g.putOff micros a).Punctual := by
  by_cases h : micros ≤ 0
  · rw [putOff_of_nonpos h]
    exact hp.post a
  · rw [Int.not_le] at h
    rw [putOff_of_pos h]
    obtain ⟨before, after, hl, hins, hbefore, hafter⟩ :=
      exists_insert ⟨g.now + micros, a⟩ hp.ordered
    have hord := List.pairwise_append.1 (hl ▸ hp.ordered)
    refine ⟨?_, fun b hb => ?_⟩
    · rw [hins]
      refine List.pairwise_append.2 ⟨hord.1, List.pairwise_cons.2 ⟨?_, hord.2.1⟩, ?_⟩
      · exact fun c hc => Int.le_of_lt (hafter c hc)
      · intro c hc d hd
        rcases List.mem_cons.1 hd with rfl | hd
        · exact hbefore c hc
        · exact hord.2.2 c hc d hd
    · rcases List.mem_cons.1 ((perm_insert _ _).subset hb) with rfl | hb
      · change g.now < g.now + micros
        omega
      · exact hp.later b hb

/-! ## Alarms of one moment -/

theorem perm_exchangeAt (n : Nat) (l : List (Alarm α)) : (exchangeAt n l).Perm l := by
  induction n generalizing l with
  | zero =>
    match l with
    | [] | [_] => exact .refl _
    | b :: c :: l =>
      unfold exchangeAt
      split
      · exact .swap b c l
      · exact .refl _
  | succ n ih =>
    cases l with
    | nil => exact .refl _
    | cons b l => exact (ih l).cons b

/-- Alarms that are due at one moment are in order either way. -/
theorem ordered_exchangeAt (n : Nat) {l : List (Alarm α)}
    (h : l.Pairwise fun a b => a.due ≤ b.due) :
    (exchangeAt n l).Pairwise fun a b => a.due ≤ b.due := by
  induction n generalizing l with
  | zero =>
    match l with
    | [] | [_] => exact h
    | b :: c :: l =>
      unfold exchangeAt
      split
      · rename_i hdue
        obtain ⟨hb, hl⟩ := List.pairwise_cons.1 h
        obtain ⟨hc, hl⟩ := List.pairwise_cons.1 hl
        refine List.pairwise_cons.2 ⟨fun d hd => ?_, List.pairwise_cons.2 ⟨?_, hl⟩⟩
        · rcases List.mem_cons.1 hd with rfl | hd
          · exact Int.le_of_eq hdue.symm
          · exact hc d hd
        · exact fun d hd => hb d (List.mem_cons_of_mem _ hd)
      · exact h
  | succ n ih =>
    cases l with
    | nil => exact h
    | cons b l =>
      obtain ⟨hb, hl⟩ := List.pairwise_cons.1 h
      exact List.pairwise_cons.2 ⟨fun c hc => hb c ((perm_exchangeAt n l).subset hc), ih hl⟩

@[simp] theorem now_exchange (n : Nat) : (g.exchange n).now = g.now := rfl

@[simp] theorem tasks_exchange (n : Nat) : (g.exchange n).tasks = g.tasks := rfl

theorem deferred_exchange (n : Nat) : (g.exchange n).deferred.Perm g.deferred :=
  ((perm_exchangeAt n g.alarms).map _).append_left _

/-- **Alarms that change places leave what is upcoming as it is**, but for its order. -/
theorem upcoming_exchange (n : Nat) : (g.exchange n).upcoming.Perm g.upcoming :=
  (deferred_exchange n).append_left _

theorem Punctual.exchange (hp : g.Punctual) (n : Nat) : (g.exchange n).Punctual :=
  ⟨ordered_exchangeAt n hp.ordered,
    fun b hb => hp.later b ((perm_exchangeAt n g.alarms).subset hb)⟩

/-! ## What happens next -/

/-- A task that is carried out was the first of all. -/
theorem of_next_perform (h : g.next = .perform a g') : g'.now = g.now ∧
    g.tasks = a :: g'.tasks ∧ g'.deferred = g.deferred ∧ g'.alarms = g.alarms := by
  unfold next at h
  split at h <;> cases h
  rename_i rest hready
  simp [tasks, deferred, hready, Ready.task?, Ready.ring?, List.filterMap_cons]

theorem upcoming_of_perform (h : g.next = .perform a g') :
    g.upcoming = (g.now, a) :: g'.upcoming := by
  obtain ⟨hnow, htasks, hdeferred, -⟩ := of_next_perform h
  simp [upcoming, hnow, htasks, hdeferred]

theorem Punctual.perform (hp : g.Punctual) (h : g.next = .perform a g') : g'.Punctual := by
  obtain ⟨hnow, -, -, halarms⟩ := of_next_perform h
  exact ⟨halarms ▸ hp.ordered, by rw [halarms, hnow]; exact hp.later⟩

/-- Either an alarm that was ringing posts its task, or time jumps to the next alarm. -/
theorem of_next_pass (h : g.next = .pass g') :
    (∃ a rest, g.ready = .ring a :: rest ∧ g' = { g with ready := rest ++ [.task a] }) ∨
      ∃ alarm rest, g.ready = [] ∧ g.alarms = alarm :: rest ∧ g' =
        { now := alarm.due
          ready := (g.alarms.takeWhile fun b => b.due ≤ alarm.due).map fun b => .ring b.task
          alarms := g.alarms.dropWhile fun b => b.due ≤ alarm.due } := by
  unfold next at h
  split at h <;> cases h
  · rename_i a rest hready
    exact .inl ⟨a, rest, hready, rfl⟩
  · rename_i alarm rest hready halarms
    exact .inr ⟨alarm, rest, hready, halarms, by rw [halarms]⟩

/-- What is upcoming when alarms ring. -/
theorem upcoming_of_ringing (now : Int) (l l' : List (Alarm α)) :
    upcoming ⟨now, l.map fun b => .ring b.task, l'⟩ =
      l.map (fun b => (now, b.task)) ++ l'.map fun b => (b.due, b.task) := by
  simp [upcoming, tasks, deferred, Ready.task?, Ready.ring?, Function.comp_def,
    List.filterMap_map]

/-- What is upcoming when nothing is ready. -/
theorem upcoming_of_idle (h : g.ready = []) :
    g.upcoming = g.alarms.map fun b => (b.due, b.task) := by
  simp [upcoming, tasks, deferred, h]

/-- An alarm that was ringing posts its task behind all others. -/
theorem upcoming_of_ring {rest : List (Ready α)} (h : g.ready = .ring a :: rest) :
    ({ g with ready := rest ++ [.task a] } : Agenda α).upcoming = g.upcoming := by
  simp [upcoming, tasks, deferred, h, Ready.task?, Ready.ring?, List.filterMap_cons]

/-- **Alarms that ring and time that passes leave what is upcoming as it is.** -/
theorem upcoming_of_pass (hp : g.Punctual) (h : g.next = .pass g') :
    g'.upcoming = g.upcoming := by
  rcases of_next_pass h with ⟨a, rest, hready, rfl⟩ | ⟨alarm, rest, hready, halarms, rfl⟩
  · exact upcoming_of_ring hready
  · rw [upcoming_of_ringing, upcoming_of_idle hready]
    have hdue : ∀ b ∈ g.alarms.takeWhile fun b => b.due ≤ alarm.due, b.due = alarm.due := by
      intro b hb
      have hle : b.due ≤ alarm.due := by
        simpa using List.all_eq_true.1 (List.all_takeWhile (l := g.alarms)
          (p := fun b => b.due ≤ alarm.due)) b hb
      have hmem := (List.takeWhile_sublist _).subset hb
      have hord := hp.ordered
      rw [halarms] at hord hmem
      rcases List.mem_cons.1 hmem with rfl | hmem
      · rfl
      · exact Int.le_antisymm hle ((List.pairwise_cons.1 hord).1 b hmem)
    have hringing : (g.alarms.takeWhile fun b => b.due ≤ alarm.due).map
        (fun b => (alarm.due, b.task)) =
          (g.alarms.takeWhile fun b => b.due ≤ alarm.due).map fun b => (b.due, b.task) :=
      List.map_congr_left fun b hb => by rw [hdue b hb]
    rw [hringing, ← List.map_append, List.takeWhile_append_dropWhile]

/-- Alarms that do not ring yet are due later. -/
theorem lt_of_mem_dropWhile {due : Int} {b : Alarm α} {l : List (Alarm α)}
    (h : l.Pairwise fun a b => a.due ≤ b.due)
    (hb : b ∈ l.dropWhile fun b => b.due ≤ due) : due < b.due := by
  induction l with
  | nil => cases hb
  | cons c l ih =>
    obtain ⟨hc, hl⟩ := List.pairwise_cons.1 h
    by_cases hle : c.due ≤ due
    · exact ih hl (by simpa [List.dropWhile_cons, hle] using hb)
    · have hmem : b ∈ c :: l := by simpa [List.dropWhile_cons, hle] using hb
      have hlt := Int.not_le.1 hle
      rcases List.mem_cons.1 hmem with rfl | hmem
      · exact hlt
      · exact Int.lt_of_lt_of_le hlt (hc b hmem)

theorem Punctual.pass (hp : g.Punctual) (h : g.next = .pass g') : g'.Punctual := by
  rcases of_next_pass h with ⟨a, rest, hready, rfl⟩ | ⟨alarm, rest, hready, halarms, rfl⟩
  · exact ⟨hp.ordered, hp.later⟩
  · exact ⟨hp.ordered.sublist (List.dropWhile_sublist _),
      fun b hb => lt_of_mem_dropWhile hp.ordered hb⟩

/-- Time never goes back. -/
theorem now_le_of_pass (hp : g.Punctual) (h : g.next = .pass g') : g.now ≤ g'.now := by
  rcases of_next_pass h with ⟨a, rest, hready, rfl⟩ | ⟨alarm, rest, hready, halarms, rfl⟩
  · exact Int.le_refl _
  · exact Int.le_of_lt (hp.later alarm (by simp [halarms]))

/-- When time passes, either an alarm that was ringing posts its task, or what was put off stays so
while nothing is posted. -/
theorem pass_cases (hp : g.Punctual) (h : g.next = .pass g') :
    (∃ a, g'.now = g.now ∧ g'.tasks = g.tasks ++ [a] ∧ g.deferred = (g.now, a) :: g'.deferred) ∨
      g.tasks = [] ∧ g'.tasks = [] ∧ g'.deferred = g.deferred := by
  have hupcoming := upcoming_of_pass hp h
  rcases of_next_pass h with ⟨a, rest, hready, rfl⟩ | ⟨alarm, rest, hready, halarms, rfl⟩
  · refine .inl ⟨a, rfl, ?_, ?_⟩ <;>
      simp [tasks, deferred, hready, Ready.task?, Ready.ring?, List.filterMap_cons]
  · have htasks : g.tasks = [] := by simp [tasks, hready]
    have htasks' : tasks ⟨alarm.due, (g.alarms.takeWhile fun b => b.due ≤ alarm.due).map
        fun b => .ring b.task, g.alarms.dropWhile fun b => b.due ≤ alarm.due⟩ = [] := by
      simp [tasks, Ready.task?, List.filterMap_map, Function.comp_def]
    refine .inr ⟨htasks, htasks', ?_⟩
    simpa [upcoming, htasks, htasks'] using hupcoming

/-! ## When it is to be done -/

theorem le_of_mem_upcoming (hp : g.Punctual) {x : Int × α} (h : x ∈ g.upcoming) :
    g.now ≤ x.1 := by
  simp only [upcoming, deferred, List.mem_append, List.mem_map] at h
  rcases h with ⟨a, -, rfl⟩ | ⟨a, -, rfl⟩ | ⟨b, hb, rfl⟩
  · exact Int.le_refl _
  · exact Int.le_refl _
  · exact Int.le_of_lt (hp.later b hb)

/-- What is upcoming is in the order of the moments. -/
theorem Punctual.ordered_upcoming (hp : g.Punctual) :
    g.upcoming.Pairwise fun x y => x.1 ≤ y.1 := by
  have hready : ∀ l : List α, (l.map (g.now, ·)).Pairwise fun x y => x.1 ≤ y.1 := fun l =>
    List.pairwise_map.2 (List.pairwise_of_forall fun _ _ => Int.le_refl _)
  have halarms : (g.alarms.map fun b => (b.due, b.task)).Pairwise fun x y => x.1 ≤ y.1 :=
    List.pairwise_map.2 hp.ordered
  have hnow : ∀ l : List α, ∀ x ∈ l.map (g.now, ·), x.1 = g.now := by
    intro l x hx
    obtain ⟨a, -, rfl⟩ := List.mem_map.1 hx
    rfl
  have hlater : ∀ y ∈ g.upcoming, g.now ≤ y.1 := fun y hy => le_of_mem_upcoming hp hy
  refine List.pairwise_append.2 ⟨hready _, List.pairwise_append.2 ⟨hready _, halarms, ?_⟩, ?_⟩
  · intro x hx y hy
    rw [hnow _ x hx]
    exact hlater y (List.mem_append_right _ (List.mem_append_right _ hy))
  · intro x hx y hy
    rw [hnow _ x hx]
    exact hlater y (List.mem_append_right _ hy)

/-- When nothing is ready, what is to be done is to be done later. -/
theorem lt_of_mem_upcoming (hp : g.Punctual) (hi : g.idle = true) {x : Int × α}
    (h : x ∈ g.upcoming) : g.now < x.1 := by
  rw [upcoming_of_idle (List.isEmpty_iff.1 hi)] at h
  obtain ⟨b, hb, rfl⟩ := List.mem_map.1 h
  exact hp.later b hb

/-- Where a task that is put off comes among all that is to be done. -/
theorem upcoming_putOff {micros : Int} (h : 0 < micros) (hp : g.Punctual) :
    ∃ before after, g.upcoming = before ++ after ∧
      (g.putOff micros a).upcoming = before ++ (g.now + micros, a) :: after ∧
      (∀ x ∈ before, x.1 ≤ g.now + micros) ∧ ∀ x ∈ after, g.now + micros < x.1 := by
  obtain ⟨before, after, hdeferred, hputOff, hbefore, hafter⟩ := deferred_putOff (a := a) h hp
  refine ⟨g.tasks.map (g.now, ·) ++ before, after, ?_, ?_, fun x hx => ?_, hafter⟩
  · rw [upcoming, hdeferred, List.append_assoc]
  · rw [upcoming, hputOff, tasks_putOff h, now_putOff, List.append_assoc]
  · rcases List.mem_append.1 hx with hx | hx
    · obtain ⟨b, -, rfl⟩ := List.mem_map.1 hx
      simp only
      omega
    · exact hbefore x hx

/-! ## Tasks of one kind -/

section Chosen

variable {β : Type} {f : α → Option β}

/-- The tasks of a kind, each with the moment at which it will be ready, the first first. -/
def chosen (f : α → Option β) (g : Agenda α) : List (Int × β) :=
  g.upcoming.filterMap fun x => (f x.2).map (x.1, ·)

theorem mem_upcoming_of_chosen {x : Int × β} (h : x ∈ g.chosen f) :
    ∃ a, (x.1, a) ∈ g.upcoming ∧ f a = some x.2 := by
  obtain ⟨⟨m, a⟩, hm, heq⟩ := List.mem_filterMap.1 h
  obtain ⟨b, hb, rfl⟩ := Option.map_eq_some_iff.1 heq
  exact ⟨a, hm, hb⟩

theorem chosen_exchange (f : α → Option β) (g : Agenda α) (n : Nat) :
    ((g.exchange n).chosen f).Perm (g.chosen f) :=
  (upcoming_exchange n).filterMap _

theorem Punctual.ordered_chosen (hp : g.Punctual) (f : α → Option β) :
    (g.chosen f).Pairwise fun x y => x.1 ≤ y.1 := by
  refine hp.ordered_upcoming.filterMap _ fun x y hle b hb c hc => ?_
  obtain ⟨-, -, rfl⟩ := Option.map_eq_some_iff.1 hb
  obtain ⟨-, -, rfl⟩ := Option.map_eq_some_iff.1 hc
  exact hle

theorem chosen_post_of_none (h : f a = none) : (g.post a).chosen f = g.chosen f := by
  rw [chosen, upcoming_post, chosen, upcoming]
  simp [List.filterMap_append, h]

theorem chosen_putOff_of_none (hp : g.Punctual) (h : f a = none) (micros : Int) :
    (g.putOff micros a).chosen f = g.chosen f := by
  by_cases hm : micros ≤ 0
  · rw [putOff_of_nonpos hm, chosen_post_of_none h]
  · obtain ⟨before, after, heq, hputOff, -⟩ := upcoming_putOff (a := a) (Int.not_le.1 hm) hp
    rw [chosen, chosen, hputOff, heq]
    simp [List.filterMap_append, h]

/-- A task of the kind comes behind those that will be ready no later. -/
theorem chosen_putOff {micros : Int} (hm : 0 < micros) (hp : g.Punctual) {b : β}
    (h : f a = some b) : ∃ before after, g.chosen f = before ++ after ∧
      (g.putOff micros a).chosen f = before ++ (g.now + micros, b) :: after ∧
      (∀ x ∈ before, x.1 ≤ g.now + micros) ∧ ∀ x ∈ after, g.now + micros < x.1 := by
  obtain ⟨before, after, heq, hputOff, hbefore, hafter⟩ := upcoming_putOff (a := a) hm hp
  refine ⟨before.filterMap fun x => (f x.2).map (x.1, ·),
    after.filterMap fun x => (f x.2).map (x.1, ·), ?_, ?_, fun x hx => ?_, fun x hx => ?_⟩
  · rw [chosen, heq, List.filterMap_append]
  · simp [chosen, hputOff, List.filterMap_append, h]
  · obtain ⟨y, hy, hyx⟩ := List.mem_filterMap.1 hx
    obtain ⟨c, -, rfl⟩ := Option.map_eq_some_iff.1 hyx
    exact hbefore y hy
  · obtain ⟨y, hy, hyx⟩ := List.mem_filterMap.1 hx
    obtain ⟨c, -, rfl⟩ := Option.map_eq_some_iff.1 hyx
    exact hafter y hy

theorem mem_chosen_putOff {micros : Int} (hm : 0 < micros) (hp : g.Punctual) {b : β}
    (h : f a = some b) {x : Int × β} :
    x ∈ (g.putOff micros a).chosen f ↔ x = (g.now + micros, b) ∨ x ∈ g.chosen f := by
  obtain ⟨before, after, heq, hputOff, -⟩ := chosen_putOff hm hp h
  rw [hputOff, heq]
  simp only [List.mem_append, List.mem_cons]
  exact or_left_comm

/-- A task of the kind that is put off, whether there is time to pass or not. -/
theorem chosen_putOff_perm (hp : g.Punctual) {b : β} (h : f a = some b) (micros : Int) :
    ((g.putOff micros a).chosen f).Perm ((g.now + max micros 0, b) :: g.chosen f) := by
  by_cases hm : micros ≤ 0
  · rw [putOff_of_nonpos hm, chosen, upcoming_post, chosen, upcoming, Int.max_eq_right hm,
      Int.add_zero]
    simp [List.filterMap_append, h]
  · obtain ⟨before, after, heq, hputOff, -⟩ := chosen_putOff (Int.not_le.1 hm) hp h
    rw [hputOff, heq, Int.max_eq_left (Int.le_of_lt (Int.not_le.1 hm))]
    exact List.perm_middle

theorem chosen_of_perform (h : g.next = .perform a g') (f : α → Option β) :
    g.chosen f = ((f a).map (g.now, ·)).toList ++ g'.chosen f := by
  rw [chosen, upcoming_of_perform h, List.filterMap_cons]
  cases f a <;> rfl

theorem chosen_of_pass (hp : g.Punctual) (h : g.next = .pass g') (f : α → Option β) :
    g'.chosen f = g.chosen f := by
  rw [chosen, upcoming_of_pass hp h, chosen]

end Chosen

/-! ## What is to be done -/

theorem holds_iff : g.Holds a ↔
    .task a ∈ g.ready ∨ .ring a ∈ g.ready ∨ ∃ b ∈ g.alarms, b.task = a := by
  have htask : (∃ x ∈ g.ready, x.task? = some a) ↔ .task a ∈ g.ready :=
    ⟨fun ⟨x, hx, ha⟩ => by cases x <;> simp_all [Ready.task?], fun h => ⟨_, h, rfl⟩⟩
  have hring : (∃ x ∈ g.ready, x.ring? = some a) ↔ .ring a ∈ g.ready :=
    ⟨fun ⟨x, hx, ha⟩ => by cases x <;> simp_all [Ready.ring?], fun h => ⟨_, h, rfl⟩⟩
  simp [Holds, upcoming, tasks, deferred, htask, hring]

/-- The tasks that are to be done, the first first. -/
def held (g : Agenda α) : List α := g.upcoming.map Prod.snd

theorem held_eq (g : Agenda α) :
    g.held = g.tasks ++ (g.ready.filterMap Ready.ring? ++ g.alarms.map Alarm.task) := by
  simp [held, upcoming, deferred, Function.comp_def]

theorem held_post (g : Agenda α) (a : α) : (g.post a).held.Perm (a :: g.held) := by
  have hrings : (g.post a).ready.filterMap Ready.ring? = g.ready.filterMap Ready.ring? := by
    simp [post, Ready.ring?]
  rw [held_eq, held_eq, tasks_post, hrings, List.append_assoc]
  exact List.perm_middle

theorem held_putOff (g : Agenda α) (micros : Int) (a : α) :
    (g.putOff micros a).held.Perm (a :: g.held) := by
  by_cases h : micros ≤ 0
  · rw [putOff_of_nonpos h]
    exact held_post g a
  · rw [putOff_of_pos (Int.not_le.1 h), held_eq, held_eq]
    have halarms := (perm_insert ⟨g.now + micros, a⟩ g.alarms).map Alarm.task
    refine ((halarms.append_left _).append_left _).trans ?_
    rw [← List.append_assoc, List.map_cons, ← List.append_assoc]
    exact List.perm_middle

theorem held_of_perform (h : g.next = .perform a g') : g.held = a :: g'.held := by
  rw [held, upcoming_of_perform h, List.map_cons]
  rfl

/-- When time passes nothing is left out, whatever the order of the alarms. -/
theorem held_of_pass (h : g.next = .pass g') : g'.held = g.held := by
  rcases of_next_pass h with ⟨b, rest, hready, rfl⟩ | ⟨alarm, rest, hready, halarms, rfl⟩
  · rw [held, upcoming_of_ring hready]
    rfl
  · rw [held, held, upcoming_of_ringing, upcoming_of_idle hready, List.map_append, List.map_map,
      List.map_map, List.map_map]
    simp only [Function.comp_def]
    rw [← List.map_append, List.takeWhile_append_dropWhile]

theorem held_of_nothing (h : g.next = .nothing) : g.held = [] := by
  unfold next at h
  split at h <;> cases h
  rename_i hready halarms
  simp [held_eq, tasks, hready, halarms]

theorem holds_post {b : α} : (g.post a).Holds b ↔ g.Holds b ∨ b = a :=
  (held_post g a).mem_iff.trans (List.mem_cons.trans or_comm)

theorem holds_putOff {micros : Int} {b : α} :
    (g.putOff micros a).Holds b ↔ g.Holds b ∨ b = a :=
  (held_putOff g micros a).mem_iff.trans (List.mem_cons.trans or_comm)

theorem holds_of_perform (h : g.next = .perform a g') {b : α} :
    g.Holds b ↔ b = a ∨ g'.Holds b := by
  change b ∈ g.held ↔ _
  rw [held_of_perform h, List.mem_cons]
  rfl

theorem holds_of_pass (h : g.next = .pass g') : g'.Holds a ↔ g.Holds a := by
  change a ∈ g'.held ↔ a ∈ g.held
  rw [held_of_pass h]

theorem holds_drop {p : α → Bool} : (g.drop p).Holds a ↔ g.Holds a ∧ p a = false := by
  have halarms : (∃ b ∈ (g.drop p).alarms, b.task = a) ↔
      (∃ b ∈ g.alarms, b.task = a) ∧ p a = false := by
    constructor
    · rintro ⟨b, hb, rfl⟩
      obtain ⟨hmem, hkept⟩ := List.mem_filter.1 hb
      exact ⟨⟨b, hmem, rfl⟩, by simpa using hkept⟩
    · rintro ⟨⟨b, hb, rfl⟩, hkept⟩
      exact ⟨b, List.mem_filter.2 ⟨hb, by simpa using hkept⟩, rfl⟩
  rw [holds_iff, holds_iff, halarms]
  simp only [drop, List.mem_filter, Bool.not_eq_true', ← or_and_right]

/-! ## Weights -/

section Weights

variable (w : α → Nat)

theorem weight_eq (g : Agenda α) : g.weight w =
    (g.ready.map (Ready.weight w)).sum + (g.alarms.map fun alarm => w alarm.task + 2).sum := by
  simp only [weight, List.sum_eq_foldr, List.foldr_map]

theorem weight_post : (g.post a).weight w = g.weight w + w a := by
  simp only [weight_eq, post, List.map_append, List.sum_append, List.map_cons, List.map_nil,
    List.sum_cons, List.sum_nil, Ready.weight]
  omega

theorem weight_putOff_le (micros : Int) :
    (g.putOff micros a).weight w ≤ g.weight w + (w a + 2) := by
  by_cases h : micros ≤ 0
  · rw [putOff_of_nonpos h, weight_post]
    omega
  · have hsum : ((insert ⟨g.now + micros, a⟩ g.alarms).map fun alarm => w alarm.task + 2).sum =
        w a + 2 + (g.alarms.map fun alarm => w alarm.task + 2).sum := by
      rw [((perm_insert _ g.alarms).map _).sum_eq, List.map_cons, List.sum_cons]
    rw [putOff_of_pos (Int.not_le.1 h), weight_eq, weight_eq]
    simp only [hsum]
    omega

theorem weight_of_perform (h : g.next = .perform a g') : g.weight w = w a + g'.weight w := by
  unfold next at h
  split at h <;> cases h
  rename_i rest hready
  simp only [weight_eq, hready, List.map_cons, List.sum_cons, Ready.weight, Nat.add_assoc]

/-- An alarm comes nearer to its task when it rings, and when time passes. -/
theorem weight_of_pass (h : g.next = .pass g') : g'.weight w < g.weight w := by
  rcases of_next_pass h with ⟨b, rest, hready, rfl⟩ | ⟨alarm, rest, hready, halarms, rfl⟩
  · simp only [weight_eq, hready, List.map_append, List.sum_append, List.map_cons, List.map_nil,
      List.sum_cons, List.sum_nil, Ready.weight]
    omega
  · have hsplit : (g.alarms.map fun b => w b.task + 2) = _ ++ _ :=
      (congrArg (List.map _) (List.takeWhile_append_dropWhile
        (p := fun b => b.due ≤ alarm.due) (l := g.alarms)).symm).trans List.map_append
    have hdue : 0 < (g.alarms.takeWhile fun b => b.due ≤ alarm.due).length := by
      simp [halarms]
    have hringing : ∀ l : List (Alarm α),
        (l.map fun b => w b.task + 2).sum = (l.map fun b => w b.task + 1).sum + l.length := by
      intro l
      rw [show l.length = (l.map fun _ => 1).sum by simp]
      exact List.sum_map_add (f := fun b : Alarm α => w b.task + 1) (g := fun _ => 1)
    simp only [weight_eq, hready, hsplit, List.sum_append, hringing, List.map_map,
      Function.comp_def, Ready.weight, List.map_nil, List.sum_nil]
    omega

end Weights

end Agenda

end Campaign
