import Campaign.Proofs.Engine.Paths
import Mathlib.Algebra.Order.BigOperators.Group.List
import Mathlib.Algebra.Order.Group.Nat
import Mathlib.Data.Nat.Nth
/-!
# Every run does finitely much

`Flow.work` bounds what the stops of a walk can bring, by the nodes that are still ahead of each.  A
tour pays for every stop to which it comes, and in advance for what it leaves (`tour_spends`).  So
does a turn, and what cannot be paid for cannot happen: `Share.Spends` says what a run has spent.

* `spends_take` is the step, `spends_follow` the statement for a history;
* `finite_works` says that the turns are finitely many that let a walk of a run go on;
* `Reachable.finite_work` puts this together with what is known of paths: what a run has to spend
  from its start depends on its flow alone, however its turns come.
-/
namespace Campaign

open Relation

namespace Flow

variable {f : Flow} {context : Value} {s t : Stop} {n : Node} {p : Position}

/-! ## What a tour spends -/

/-- The walk that a halt leaves to go on later. -/
def kept (f : Flow) : Halt → List (List Stop)
  | .sending n path rest _ => [f.behind n.id path .everywhere ++ rest]
  | .ended | .failed _ => []

/-- The walks that a tour leaves to go on later: behind the delays that it begins, and after the
reply for which it waits. -/
def openings (f : Flow) (context : Value) (t : List Stop × Halt) : List (List Stop) :=
  (t.1.flatMap (f.delays context)).map f.beyond ++ f.kept t.2

theorem openings_comeTo (f : Flow) (context : Value) (s : Stop) (t : List Stop × Halt) :
    f.openings context (comeTo s t) =
      (f.delays context s).map f.beyond ++ f.openings context t := by
  simp [openings, List.append_assoc]

theorem work_pos_of_cons (f : Flow) (s : Stop) (rest : List Stop) :
    f.work rest < f.work (s :: rest) := by
  have := f.share_pos s.path
  simp only [work]
  omega

/-- A node that is processed leaves less to do behind it than it was worth. -/
theorem work_behind_lt_cons (hs : f.processed? s = some n) (way : Onward) (rest : List Stop) :
    f.work (f.behind n.id (s.path ++ [n.id]) way ++ rest) < f.work (s :: rest) := by
  obtain ⟨hmem, hid, hfresh⟩ := processed?_spec hs
  have := f.work_behind_lt hmem (hid.symm ▸ hfresh) way
  rw [work_append]
  simp only [work]
  omega

/-- **A tour pays for its stops**, and in advance for what it leaves. -/
theorem tour_spends (f : Flow) (context : Value) (stops : List Stop) :
    (f.openings context (f.tour context stops)).length ≤ (f.tour context stops).1.length ∧
      (f.tour context stops).1.length +
        f.work (f.openings context (f.tour context stops)).flatten ≤ f.work stops := by
  fun_induction tour f context stops with
  | case1 => exact ⟨Nat.le_refl _, Nat.le_refl _⟩
  | case2 s rest hn ih =>
    have := f.work_pos_of_cons s rest
    rw [openings_comeTo, delays_of_none (processed?_of_none hn), List.map_nil, List.nil_append,
      comeTo_fst, List.length_cons]
    omega
  | case3 s rest n hn hp ih =>
    have := f.work_pos_of_cons s rest
    rw [openings_comeTo, delays_of_none (processed?_of_mem hn hp), List.map_nil, List.nil_append,
      comeTo_fst, List.length_cons]
    omega
  | case4 s rest n hn hp way hv ih =>
    have hs := processed?_of_not_mem hn hp
    have := work_behind_lt_cons hs way rest
    rw [openings_comeTo, delays_of_processed hs, hv, comeTo_fst, List.length_cons]
    simp only [Visit.delays, List.map_nil, List.nil_append]
    omega
  | case5 s rest n hn hp hv ih =>
    have hs := processed?_of_not_mem hn hp
    have := work_behind_lt_cons hs .everywhere rest
    rw [openings_comeTo, delays_of_processed hs, hv, comeTo_fst, List.length_cons]
    simp only [Visit.delays, List.map_cons, List.map_nil, List.cons_append, List.nil_append,
      List.length_cons, List.flatten_cons, beyond, work_append] at this ⊢
    omega
  | case6 s rest n hn hp message hv =>
    have hs := processed?_of_not_mem hn hp
    have := work_behind_lt_cons hs .everywhere rest
    have hopen : f.openings context ([s], .sending n (s.path ++ [n.id]) rest message) =
        [f.behind n.id (s.path ++ [n.id]) .everywhere ++ rest] := by
      simp [openings, kept, delays_of_processed hs, hv, Visit.delays]
    rw [hopen, List.flatten_singleton, List.length_singleton, List.length_singleton]
    omega
  | case7 s rest n hn hp failure hv =>
    have hs := processed?_of_not_mem hn hp
    have := f.work_pos_of_cons s rest
    have hopen : f.openings context ([s], .failed failure) = [] := by
      simp [openings, kept, delays_of_processed hs, hv, Visit.delays]
    rw [hopen, List.flatten_nil, List.length_nil, List.length_singleton, work]
    omega

theorem work_eq_sum (f : Flow) (stops : List Stop) :
    f.work stops = (stops.map fun s => f.share s.path).sum := by
  induction stops with
  | nil => rfl
  | cons s stops ih => rw [work, ih, List.map_cons, List.sum_cons]

/-- Fewer stops bring less. -/
theorem work_le_of_subperm {stops stops' : List Stop} (h : stops.Subperm stops') :
    f.work stops ≤ f.work stops' := by
  obtain ⟨l, hperm, hsub⟩ := h
  rw [work_eq_sum, work_eq_sum, ← (hperm.map _).sum_eq]
  exact (hsub.map _).sum_le_sum fun _ _ => Nat.zero_le _

/-- Fewer walks bring less. -/
theorem work_flatten_le {walks walks' : List (List Stop)} (h : walks.Subperm walks') :
    f.work walks.flatten ≤ f.work walks'.flatten := by
  obtain ⟨l, hperm, hsub⟩ := h
  exact work_le_of_subperm ⟨l.flatten, hperm.flatten, hsub.flatten⟩

end Flow

/-! ## What a turn spends -/

/-- What a run has spent in a turn or in several: it has come to some stops, and some of its walks
have gone on. -/
structure Share.Spends (f : Flow) (a b : Share) (stops works : Nat) : Prop where
  work : stops + f.work (b.pending f) ≤ f.work (a.pending f)
  duties : works + (b.duties f).length ≤ (a.duties f).length + stops
  scheduled : b.scheduled.length ≤ a.scheduled.length + stops

namespace Share

variable {f : Flow} {a b c : Share} {m n m' n' : Nat} {duty : List Stop}
  {rest openings : List (List Stop)}

theorem Spends.trans (h : a.Spends f b m n) (h' : b.Spends f c m' n') :
    a.Spends f c (m + m') (n + n') := by
  have := h.work
  have := h.duties
  have := h.scheduled
  have := h'.work
  have := h'.duties
  have := h'.scheduled
  constructor <;> omega

/-- A run that comes to no stop and no walk of which goes on. -/
theorem Spends.of_sublist (h : (b.duties f).Sublist (a.duties f))
    (hs : b.scheduled = a.scheduled) : a.Spends f b 0 0 where
  work := by
    rw [← flatten_duties, ← flatten_duties, Nat.zero_add]
    exact Flow.work_flatten_le h.subperm
  duties := by
    have := h.length_le
    omega
  scheduled := by rw [hs]; exact Nat.le_refl _

theorem Spends.of_eq (h : b = a) : a.Spends f b 0 0 :=
  h ▸ .of_sublist (.refl _) rfl

/-- A walk goes on, and in its place those are still to go on that it leaves. -/
theorem Spends.of_perm (ha : (a.duties f).Perm (duty :: rest))
    (hb : (b.duties f).Subperm (rest ++ openings)) (hlength : openings.length ≤ m)
    (hwork : m + f.work openings.flatten ≤ f.work duty)
    (hs : b.scheduled.length ≤ a.scheduled.length + m) : a.Spends f b m 1 where
  work := by
    have hbefore := Flow.work_flatten_le (f := f) ha.symm.subperm
    have hafter := Flow.work_flatten_le (f := f) hb
    rw [List.flatten_cons, Flow.work_append, flatten_duties] at hbefore
    rw [List.flatten_append, Flow.work_append, flatten_duties] at hafter
    omega
  duties := by
    have hbefore := ha.length_eq
    have hafter := hb.length_le
    rw [List.length_cons] at hbefore
    rw [List.length_append] at hafter
    omega
  scheduled := hs

/-- A walk is given up. -/
theorem Spends.of_cons (ha : (a.duties f).Perm (duty :: rest)) (hb : (b.duties f).Sublist rest)
    (hs : b.scheduled = a.scheduled) : a.Spends f b 0 1 := by
  have hleft : (b.duties f).Subperm (rest ++ []) := by simpa using hb.subperm
  refine .of_perm ha hleft (Nat.le_refl _) (Nat.zero_le _) ?_
  rw [hs]
  exact Nat.le_refl _

end Share

instance Turn.decidableWorks (e : Engine) (run : String) (t : Turn) : Decidable (t.Works e run) :=
  match t with
  | .begin s => inferInstanceAs (Decidable (s = run ∧ run ∈ e.unstarted))
  | .reply ticket _ => decidable_of_iff ((e.sending.lookup ticket).map Sending.run = some run)
      Option.map_eq_some_iff
  | .fire timer => decidable_of_iff ((e.timers.find? timer).map Timer.run = some run)
      Option.map_eq_some_iff
  | .start _ _ _ | .cancelRun _ | .cancelDelay _ _ | .cancelFlowRuns _ | .served _ | .told _ =>
    inferInstanceAs (Decidable False)

namespace Engine

variable {e : Engine} {now : Int} {run : String} {f : Flow} {context : Value} {met : List Stop}
  {kept : Prop} {r : Run} {l : Live} {t : Turn}

/-- The walk that comes to wait for a reply is the one that a tour leaves for then. -/
theorem map_after_waiting (f : Flow) (e : Engine) (run flowId : String) (origin : Origin)
    (halt : Halt) :
    (e.waiting run flowId origin halt).map (fun entry => f.after entry.2) = f.kept halt := by
  cases halt <;> rfl

/-- What is concluded from the halt of a walk ends walks or keeps them to go on later. -/
theorem duties_conclude {origin : Origin} (h : (e.about run).Going [origin] r l) (now : Int)
    (flowId : String) (halt : Halt) (f : Flow) :
    (((conclude now run flowId origin (e, halt)).about run).duties f).Subperm
        ((e.about run).duties f ++ f.kept halt) ∧
      ((conclude now run flowId origin (e, halt)).about run).scheduled =
        (e.about run).scheduled := by
  obtain ⟨record, live, timers, htimers, heq⟩ := about_conclude_of_going h now flowId halt
  rw [heq]
  refine ⟨?_, rfl⟩
  simp only [Share.duties, List.map_append, map_after_waiting, List.append_assoc]
  refine List.Subperm.trans (List.Sublist.subperm ?_)
    (List.Perm.append_left _ (List.Perm.append_left _ List.perm_append_comm)).subperm
  exact .append (.refl _) (.append (.refl _) (.append (.refl _) (htimers.map _)))

/-- A walk that goes on pays for its stops, and in advance for what it leaves. -/
theorem spends_of_departure (d : Departure e now run r l t) :
    (e.about run).Spends l.flow ((e.take now t).about run)
      (l.flow.tour l.context (e.errand run l.flow t)).1.length 1 := by
  obtain ⟨a⟩ := exists_arrival d.going now (e.errand run l.flow t)
  have hduties := a.duties
  have hscheduled := a.scheduled
  rw [d.flow, d.context] at hduties hscheduled
  obtain ⟨hlength, hwork⟩ := l.flow.tour_spends l.context (e.errand run l.flow t)
  have hafter := duties_conclude a.going now d.flowId (l.flow.tour l.context
    (e.errand run l.flow t)).2 l.flow
  rw [d.take, a.proceed, d.flow, d.context]
  refine .of_perm d.duties ?_ hlength hwork ?_
  · rw [hduties, List.append_assoc] at hafter
    exact hafter.1
  · rw [hafter.2, hscheduled, d.scheduled]
    simp only [Flow.openings, List.length_append, List.length_map] at hlength
    omega

/-- A walk is given up for which there is nothing to come. -/
theorem spends_of_forsaken (d : Forsaken e now run r l t) :
    (e.about run).Spends l.flow ((e.take now t).about run) 0 1 := by
  rw [d.about]
  exact .of_cons d.duties (Share.duties_broken _ _ _) d.scheduled

/-- Delays of a run are called off. -/
theorem spends_cancelDelay (h : (e.about run).Going [] r l) (now : Int) (node : String) (f : Flow) :
    (e.about run).Spends f ((e.cancelDelay now run node).1.about run) 0 0 := by
  obtain ⟨record, live, heq⟩ := about_cancelDelay_of_going h now node
  rw [heq]
  exact .of_sublist (duties_undelayed e run node f) rfl

/-- **A turn of a run that is going pays for what the run comes to.** -/
theorem spends_take_of_going (hc : e.Coherent) (h : (e.about run).Going [] r l) (now : Int)
    (ha : t.Admitted e) : (e.about run).Spends l.flow ((e.take now t).about run)
      (e.met run t).length (if t.Works e run then 1 else 0) := by
  by_cases hw : t.Works e run
  · rw [if_pos hw, met_of_live h.live]
    rcases exists_departure hc.tidy h hw now with ⟨⟨d⟩⟩ | ⟨⟨d⟩⟩
    · exact spends_of_departure d
    · rw [d.reason.errand, Flow.tour_nil]
      exact spends_of_forsaken d
  rw [if_neg hw, met_of_errand_nil h.live (errand_of_not_works hw l.flow), List.length_nil]
  have hidle := idle_take hc h now ha hw
  generalize (e.take now t).about run = after at hidle ⊢
  cases hidle with
  | unchanged => exact .of_eq rfl
  | cancelled => exact .of_sublist (Share.duties_broken _ _ _) rfl
  | undelayed node => exact spends_cancelDelay h now node l.flow

/-- A walk of a run that has ended goes on to its end without a trace. -/
theorem spends_take_of_ended (hc : e.Coherent) (hr : (e.about run).record = some r)
    (hterm : r.status.terminal) (now : Int) (ha : t.Admitted e) (f : Flow) :
    (e.about run).Spends f ((e.take now t).about run) (e.met run t).length
      (if t.Works e run then 1 else 0) := by
  obtain ⟨hl, htm, -⟩ := (hc.known hr).of_terminal hr hterm
  have hfrozen := frozen_take hc hr hterm now ha
  rw [met_of_none hl, List.length_nil]
  by_cases hw : t.Works e run
  case neg =>
    rw [if_neg hw]
    exact .of_sublist (Share.duties_sublist hfrozen.unstarted hfrozen.sending
      (hfrozen.timers ▸ .refl _) f) hfrozen.scheduled
  rw [if_pos hw]
  cases t with
  | begin s =>
    obtain ⟨rfl, hu⟩ := hw
    have hget : e.live.get? s = none := hl
    obtain ⟨n, hn⟩ := Nat.exists_eq_succ_of_ne_zero (List.count_pos_iff.2 hu).ne'
    have hcount : (e.about s).unstarted = n + 1 := hn
    simp only [take, begin_eq, if_pos hu, hget, about_begun, if_true, hcount]
    exact .of_cons (duties_setOut hcount (e.about s).record f) (.refl _) rfl
  | reply ticket reply =>
    obtain ⟨sd, hsd, rfl⟩ := hw
    simp only [take, reply_eq, hsd]
    rw [about_afterReply_of_ended (e := e.answered ticket) sd hr hterm hl]
    exact .of_cons (duties_answered hc.tidy (mem_of_lookup_sending hsd) f) (.refl _) rfl
  | fire timer =>
    obtain ⟨t, hfind, rfl⟩ := hw
    have hperm := perm_timers_rung hc.tidy (Scheduler.mem_of_find? hfind).1
    exact absurd (htm ▸ hperm).length_eq (by simp)
  | _ => exact hw.elim

/-- **Every turn pays for what a run comes to.** -/
theorem spends_take (hc : e.Coherent) (hcourse : (e.about run).Course f context met kept r)
    (now : Int) (ha : t.Admitted e) : (e.about run).Spends f ((e.take now t).about run)
      (e.met run t).length (if t.Works e run then 1 else 0) := by
  have hk := hc.known hcourse.record
  cases hk with
  | going r₀ l hg =>
    obtain ⟨rfl, -⟩ := hcourse.live l hg.live
    exact spends_take_of_going hc hg now ha
  | ended r₀ hr hterm hl => exact spends_take_of_ended hc hr hterm now ha f

/-! ## What a run spends -/

/-- How many turns of a history let a walk of a run go on. -/
def works (e : Engine) (run : String) : List (Int × Turn) → Nat
  | [] => 0
  | (now, t) :: history => (if t.Works e run then 1 else 0) + (e.take now t).works run history

theorem works_concat (e : Engine) (history : List (Int × Turn)) (turn : Int × Turn) :
    e.works run (history ++ [turn]) =
      e.works run history + if turn.2.Works (e.follow history) run then 1 else 0 := by
  induction history generalizing e with
  | nil => exact (Nat.zero_add _).symm
  | cons first history ih =>
    obtain ⟨now, t⟩ := first
    rw [List.cons_append, works, ih, works, Nat.add_assoc]
    rfl

/-- **A history pays for what a run comes to.** -/
theorem spends_follow (hc : e.Coherent) (hcourse : (e.about run).Course f context met kept r)
    {history : List (Int × Turn)} (ha : e.Admits history) :
    (e.about run).Spends f ((e.follow history).about run) (e.metAlong run history).length
      (e.works run history) := by
  induction history generalizing e met kept r with
  | nil => exact .of_eq rfl
  | cons turn history ih =>
    obtain ⟨now, t⟩ := turn
    obtain ⟨r', hcourse'⟩ := course_take hc hcourse now ha.1
    have hrest := ih (coherent_take hc now ha.1) hcourse' ha.2
    rw [metAlong, List.length_append]
    exact (spends_take hc hcourse now ha.1).trans hrest

/-- A run that starts has its first walk to begin. -/
theorem duties_start (h : (e.about run).Unknown) (now : Int) (f : Flow) (event : Event) :
    ((e.start now run f event).about run).duties f = [f.roots] := by
  rw [about_start]
  simp [Share.duties, h.unstarted, h.timers, h.sending]

/-- A run that starts carries on no path. -/
theorem simple_start (h : (e.about run).Unknown) (now : Int) (f : Flow) (event : Event) :
    ((e.start now run f event).about run).Simple f := by
  rw [about_start]
  exact ⟨by simp [h.sending], by simp [h.timers]⟩

/-- Where the turns are bounded that let a walk of a run go on, they are finitely many. -/
theorem finite_works {turns : Nat → Int × Turn} {bound : Nat}
    (h : ∀ n, e.works run ((List.range n).map turns) ≤ bound) :
    {n | (turns n).2.Works (e.follow ((List.range n).map turns)) run}.Finite := by
  let working (n : Nat) : Prop := (turns n).2.Works (e.follow ((List.range n).map turns)) run
  have hcount (n : Nat) : Nat.count working n = e.works run ((List.range n).map turns) := by
    induction n with
    | zero => rfl
    | succ n ih =>
      rw [Nat.count_succ, ih, List.range_succ, List.map_append, List.map_singleton, works_concat]
  by_contra hinf
  have hmore := Nat.count_nth_of_infinite hinf (bound + 1)
  have hbound := h (Nat.nth working (bound + 1))
  rw [← hcount, hmore] at hbound
  omega

end Engine

/-- The nodes that are processed are among the stops. -/
theorem length_announcements_le (f : Flow) (context : Value) (met : List Stop) :
    ((met.flatMap (f.remarks context)).filter announces).length ≤ met.length := by
  induction met with
  | nil => exact Nat.le_refl _
  | cons s met ih =>
    rw [List.flatMap_cons, List.filter_append, filter_remarks, List.length_append, List.length_cons]
    have hone : ((f.processed? s).map Node.announcement).toList.length ≤ 1 := by
      cases f.processed? s <;> simp
    omega

/-- **Every run does finitely much**, whatever its flow.

On each branch the path is one of distinct nodes of the flow, across delays as well: so it is with
the stops to which a run comes, and with what it carries on to later turns.  So a walk comes to no
more stops than those are worth with which it sets out, and no more delays are behind one another on
a branch than nodes are delays.  However the turns come after its start, a run comes to stops of its
tree only, and it processes nodes, schedules continuations and lets walks go on no more often than
its flow alone says; of any sequence of turns only finitely many let a walk of it go on. -/
theorem Engine.Reachable.finite_work {e : Engine} (h : e.Reachable) (now : Int) {run : String}
    (flow : Flow) (event : Event) (hnew : e.runs.get? run = none) :
    let e₀ := e.take now (.start run flow event)
    let context := Value.object event.context
    let bound := flow.work flow.roots
    (∀ stops, (flow.tour context stops).1.length ≤ flow.work stops) ∧
      (∀ stops : List Stop, stops.IsChain (TransGen (flow.Below context)) →
        (∀ s ∈ stops, flow.delays context s ≠ []) → stops.length ≤ flow.delayIds.length) ∧
      (∀ history, e₀.Admits history →
        ((e₀.follow history).about run).Simple flow ∧
        (∀ s ∈ e₀.metAlong run history,
          flow.Simple s.path ∧ ∃ p, flow.stopAt context p = some s) ∧
        (e₀.metAlong run history).length ≤ bound ∧
        (∃ r, (e₀.follow history).runs.get? run = some r ∧
          (r.sayings.filter announces).length ≤ bound) ∧
        ((e₀.follow history).notices.filter (Notice.schedules run)).length ≤
          (e₀.notices.filter (Notice.schedules run)).length + bound ∧
        e₀.works run history ≤ bound + 1) ∧
      ∀ turns : Nat → Int × Turn, (∀ n, e₀.Admits ((List.range n).map turns)) →
        {n | (turns n).2.Works (e₀.follow ((List.range n).map turns)) run}.Finite := by
  intro e₀ context bound
  have hunknown := h.coherent.unknown hnew
  have hadm : (Turn.start run flow event).Admitted e := hnew
  have hc : e₀.Coherent := coherent_take h.coherent now hadm
  obtain ⟨r₀, h₀⟩ := course_start hunknown now flow event
  have hduties : (e₀.about run).duties flow = [flow.roots] := duties_start hunknown now flow event
  have hpending : (e₀.about run).pending flow = flow.roots := by
    rw [← Share.flatten_duties, hduties, List.flatten_singleton]
  have hspends : ∀ history, e₀.Admits history → (e₀.metAlong run history).length ≤ bound ∧
      e₀.works run history ≤ bound + 1 := by
    intro history ha
    have hspend := spends_follow hc h₀ ha
    have hwork := hspend.work
    have hlength := hspend.duties
    rw [hpending] at hwork
    rw [hduties, List.length_singleton] at hlength
    exact ⟨by omega, by omega⟩
  refine ⟨fun stops => ?_, fun stops => Flow.length_le_of_delays, fun history ha => ?_,
    fun turns ha => finite_works fun n => (hspends _ (ha n)).2⟩
  · have := (flow.tour_spends context stops).2
    omega
  · obtain ⟨hmet, hworks⟩ := hspends history ha
    obtain ⟨hcarried, hpaths⟩ := simple_follow hc h₀ (simple_start hunknown now flow event) ha
    obtain ⟨r, hr⟩ := course_follow hc h₀ ha
    rw [List.nil_append] at hr
    obtain ⟨done, opened, hled⟩ := hr.explored
    refine ⟨hcarried, fun s hs => ⟨hpaths s hs, ?_⟩, hmet, ⟨r, hr.record, ?_⟩, ?_, hworks⟩
    · obtain ⟨p, -, hp⟩ := hled.exists_stopAt hs
      exact ⟨p, hp⟩
    · rw [hr.sayings announces fun x hx => announces_aside hx]
      exact (length_announcements_le _ _ _).trans hmet
    · exact (spends_follow hc h₀ ha).scheduled.trans (Nat.add_le_add_left hmet _)

/-- A flow that waits in a round: a delay is behind itself, a second node has its id, and an edge
leads to no node. -/
def waitingRound : Flow :=
  let wait : List (String × Value) :=
    [("delay", .object [("amount", .int 2), ("unit", .text "hours")])]
  { id := "f", name := "Round", active := true
    nodes := [⟨"t", "Order", .trigger, []⟩, ⟨"d", "Wait", .delay, wait⟩,
      ⟨"d", "Again", .delay, wait⟩]
    edges := [⟨"1", "t", "d", none, none⟩, ⟨"2", "d", "d", none, none⟩, ⟨"3", "d", "x", none, none⟩]
    createdAt := .utc 0, updatedAt := .utc 0 }

/-- A run of that flow waits once and comes to an end. -/
theorem waitingRound_finite_work :
    let e₀ := Engine.take { channel := "mail" } 0 (.start "r" waitingRound order)
    let history := [(1, .begin "r"), (2, .fire 0)]
    waitingRound.work waitingRound.roots = 16 ∧ e₀.works "r" history = 2 ∧
      (e₀.metAlong "r" history).map Stop.node = ["d", "d", "x"] ∧
      (∀ s ∈ e₀.metAlong "r" history, waitingRound.Simple s.path) ∧
      ((e₀.follow history).runs.get? "r").map Run.status = some .completed ∧
      {n | (3, Turn.fire n).2.Works (e₀.follow ((List.range n).map fun n => (3, Turn.fire n)))
        "r"}.Finite := by
  intro e₀ history
  have hnew : (Engine.runs { channel := "mail" }).get? "r" = none := rfl
  have hadm : e₀.Admits history := ⟨trivial, trivial, trivial⟩
  have hfires (numbers : List Nat) :
      ∀ e : Engine, e.Admits (numbers.map fun n => (3, Turn.fire n)) := by
    induction numbers with
    | nil => exact fun _ => trivial
    | cons n numbers ih => exact fun e => ⟨trivial, ih _⟩
  obtain ⟨-, -, hhistory, hfinite⟩ :=
    Engine.Reachable.finite_work (.idle "mail") 0 waitingRound order hnew
  refine ⟨by decide +kernel, by decide +kernel, by decide +kernel, fun s hs => ?_,
    by decide +kernel, hfinite _ fun n => hfires _ e₀⟩
  exact ((hhistory history hadm).2.1 s hs).1

end Campaign
