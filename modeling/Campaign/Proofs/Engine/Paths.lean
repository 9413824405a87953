import Campaign.Proofs.Engine.ExactlyOnce
import Mathlib.Data.List.Dedup
/-!
# Paths

A branch processes no node twice, across its delays as well: the path to a stop is one of distinct
nodes of the flow (`Flow.Simple`).  So it is at the roots of a run (`simple_of_mem_roots`), on every
tour (`simpleTour`), and in all that a run carries on from turn to turn (`Share.Simple`,
`simple_follow`).  On a branch there are no more delays behind one another than nodes that are
delays (`length_le_of_delays`).
-/
namespace Campaign

open Relation

namespace Flow

variable {f : Flow} {context : Value} {s t : Stop} {n : Node} {stops : List Stop}

/-- Whether a path is one of distinct nodes of a flow. -/
def Simple (f : Flow) (path : List String) : Prop :=
  path.Nodup ∧ path ⊆ f.nodes.map (·.id)

/-- A node that is processed at a stop prolongs the path. -/
theorem Simple.processed (h : f.Simple s.path) (hs : f.processed? s = some n) :
    f.Simple (s.path ++ [n.id]) := by
  obtain ⟨hmem, hid, hfresh⟩ := processed?_spec hs
  refine ⟨List.nodup_append.2 ⟨h.1, List.nodup_singleton _, ?_⟩, List.append_subset.2 ⟨h.2, ?_⟩⟩
  · rintro x hx y hy rfl
    exact hfresh (hid ▸ List.mem_singleton.1 hy ▸ hx)
  · exact List.cons_subset.2 ⟨List.mem_map_of_mem hmem, List.nil_subset _⟩

/-- The stops behind a node have its path. -/
theorem Simple.behind {path : List String} (h : f.Simple path) {id : String} {way : Onward}
    (hs : s ∈ f.behind id path way) : f.Simple s.path := by
  obtain ⟨target, -, rfl⟩ := List.mem_map.1 hs
  exact h

/-! ## In the tree -/

/-- Whether a stop is right below another. -/
def Below (f : Flow) (context : Value) (s t : Stop) : Prop := t ∈ f.children context s

/-- What lies below a stop has its node on the path. -/
theorem Below.processed (h : f.Below context s t) :
    ∃ n, f.processed? s = some n ∧ t.path = s.path ++ [n.id] := by
  unfold Below children at h
  split at h
  · rename_i n hs
    obtain ⟨target, -, rfl⟩ := List.mem_map.1 h
    exact ⟨n, hs, rfl⟩
  · cases h

theorem simple_of_mem_roots (h : s ∈ f.roots) : f.Simple s.path := by
  unfold roots at h
  split at h
  · cases h
  · rename_i trigger more htriggers
    have htrigger : trigger ∈ f.triggers := htriggers ▸ List.mem_cons_self
    refine Simple.behind ⟨List.nodup_singleton _, List.cons_subset.2 ⟨?_, List.nil_subset _⟩⟩ h
    exact List.mem_map_of_mem (List.mem_filter.1 htrigger).1

/-! ## Delays behind one another -/

/-- What lies below a stop, however far, has its node on the path. -/
theorem mem_path_of_below (h : TransGen (f.Below context) s t) : s.node ∈ t.path := by
  induction h with
  | single h =>
    obtain ⟨n, hn, hpath⟩ := h.processed
    rw [hpath, ← (processed?_spec hn).2.1]
    exact List.mem_append_right _ (List.mem_singleton_self _)
  | tail _ h ih =>
    obtain ⟨n, -, hpath⟩ := h.processed
    rw [hpath]
    exact List.mem_append_left _ ih

/-- The ids of the nodes that are delays, each once. -/
def delayIds (f : Flow) : List String := ((f.nodes.filter (·.kind = .delay)).map (·.id)).dedup

/-- A delay begins at a stop only where a delay is processed. -/
theorem processed_of_delays (h : f.delays context s ≠ []) :
    s.node ∈ f.delayIds ∧ s.node ∉ s.path := by
  cases hs : f.processed? s with
  | none => exact absurd (delays_of_none hs) h
  | some n =>
    obtain ⟨hmem, hid, hfresh⟩ := processed?_spec hs
    have hwaits : n.outcome context = .waits := by
      rw [delays_of_processed hs] at h
      cases ho : n.outcome context with
      | waits => rfl
      | _ => simp [ho, Visit.delays] at h
    have hdelay : n ∈ f.nodes.filter (·.kind = .delay) :=
      List.mem_filter.2 ⟨hmem, by simpa using Node.kind_of_waits hwaits⟩
    exact ⟨List.mem_dedup.2 (hid ▸ List.mem_map_of_mem hdelay), hfresh⟩

/-- **Delays behind one another on a branch are no more than the nodes that are delays.** -/
theorem length_le_of_delays (h : stops.IsChain (TransGen (f.Below context)))
    (hd : ∀ s ∈ stops, f.delays context s ≠ []) : stops.length ≤ f.delayIds.length := by
  have hpairs : stops.Pairwise (TransGen (f.Below context)) := List.isChain_iff_pairwise.1 h
  have hnodup : (stops.map Stop.node).Nodup := by
    refine List.pairwise_map.2 (hpairs.imp_of_mem fun _ ht hlead heq => ?_)
    exact (processed_of_delays (hd _ ht)).2 (heq ▸ mem_path_of_below hlead)
  have hsub : stops.map Stop.node ⊆ f.delayIds := by
    intro id hid
    obtain ⟨s, hs, rfl⟩ := List.mem_map.1 hid
    exact (processed_of_delays (hd s hs)).1
  simpa using (hnodup.subperm hsub).length_le

/-! ## On tours -/

/-- Whether a tour keeps to simple paths, with what it leaves when it comes to wait for a reply. -/
structure SimpleTour (f : Flow) (t : List Stop × Halt) : Prop where
  met : ∀ s ∈ t.1, f.Simple s.path
  halt : ∀ n path rest message, t.2 = .sending n path rest message →
    f.Simple path ∧ ∀ s ∈ rest, f.Simple s.path

theorem SimpleTour.comeTo {t : List Stop × Halt} (h : f.SimpleTour t) (hs : f.Simple s.path) :
    f.SimpleTour (comeTo s t) :=
  ⟨List.forall_mem_cons.2 ⟨hs, h.met⟩, h.halt⟩

/-- **A tour that sets out from simple paths keeps to such.** -/
theorem simpleTour (h : ∀ s ∈ stops, f.Simple s.path) : f.SimpleTour (f.tour context stops) := by
  fun_induction tour f context stops with
  | case1 => exact ⟨h, fun _ _ _ _ heq => by cases heq⟩
  | case2 s rest hn ih =>
    obtain ⟨hs, hrest⟩ := List.forall_mem_cons.1 h
    exact (ih hrest).comeTo hs
  | case3 s rest n hn hp ih =>
    obtain ⟨hs, hrest⟩ := List.forall_mem_cons.1 h
    exact (ih hrest).comeTo hs
  | case4 s rest n hn hp way hv ih =>
    obtain ⟨hs, hrest⟩ := List.forall_mem_cons.1 h
    refine (ih fun x hx => ?_).comeTo hs
    rcases List.mem_append.1 hx with hx | hx
    · exact (hs.processed (processed?_of_not_mem hn hp)).behind hx
    · exact hrest x hx
  | case5 s rest n hn hp hv ih =>
    obtain ⟨hs, hrest⟩ := List.forall_mem_cons.1 h
    exact (ih hrest).comeTo hs
  | case6 s rest n hn hp message hv =>
    obtain ⟨hs, hrest⟩ := List.forall_mem_cons.1 h
    refine ⟨List.forall_mem_singleton.2 hs, fun _ _ _ _ heq => ?_⟩
    cases heq
    exact ⟨hs.processed (processed?_of_not_mem hn hp), hrest⟩
  | case7 s rest n hn hp failure hv =>
    exact ⟨List.forall_mem_singleton.2 (List.forall_mem_cons.1 h).1, fun _ _ _ _ heq => by
      cases heq⟩

/-- A delay that begins carries a path on that is simple, if the one to its stop is. -/
theorem Simple.delays (h : f.Simple s.path) {c : Continuation} (hc : c ∈ f.delays context s) :
    f.Simple c.path := by
  cases hs : f.processed? s with
  | none => simp [delays_of_none hs] at hc
  | some n =>
    rw [delays_of_processed hs] at hc
    unfold Visit.delays at hc
    split at hc
    · exact List.mem_singleton.1 hc ▸ h.processed hs
    · cases hc

end Flow

/-! ## From turn to turn -/

/-- Whether all paths are simple that a run carries on to later turns: those of its walks that wait
for replies, and those behind its delays. -/
structure Share.Simple (f : Flow) (a : Share) : Prop where
  sending : ∀ entry ∈ a.sending,
    f.Simple entry.2.path ∧ ∀ s ∈ entry.2.rest, f.Simple s.path
  timers : ∀ t ∈ a.timers, f.Simple t.what.path

theorem Share.Simple.subset {f : Flow} {a b : Share} (h : a.Simple f)
    (hs : b.sending ⊆ a.sending) (ht : b.timers ⊆ a.timers) : b.Simple f :=
  ⟨fun entry he => h.sending entry (hs he), fun t hm => h.timers t (ht hm)⟩

namespace Engine

variable {e : Engine} {now : Int} {run : String} {f : Flow} {context : Value} {met : List Stop}
  {kept : Prop} {r : Run} {l : Live} {t : Turn}

/-- A turn sets out from simple paths. -/
theorem simple_of_mem_errand (h : (e.about run).Simple f) :
    ∀ s ∈ e.errand run f t, f.Simple s.path := by
  intro s hs
  cases t with
  | begin s' =>
    simp only [errand] at hs
    split at hs
    · exact Flow.simple_of_mem_roots hs
    · cases hs
  | reply ticket reply =>
    cases reply with
    | accepted id =>
      simp only [errand] at hs
      split at hs
      · rename_i sd hsd
        split at hs
        · rename_i hrun
          have hm : (ticket, sd) ∈ (e.about run).sending :=
            List.mem_filter.2 ⟨mem_of_lookup_sending hsd, by simpa using hrun⟩
          obtain ⟨hpath, hrest⟩ := h.sending _ hm
          exact (List.mem_append.1 hs).elim hpath.behind (hrest s)
        · cases hs
      · cases hs
    | _ => cases hs
  | fire number =>
    simp only [errand] at hs
    split at hs
    · rename_i t hfind
      split at hs
      · rename_i hrun
        have hm : t ∈ (e.about run).timers :=
          List.mem_filter.2 ⟨(Scheduler.mem_of_find? hfind).1, by simpa using hrun⟩
        exact (h.timers t hm).behind hs
      · cases hs
    · cases hs
  | _ => cases hs

/-- What is concluded from the halt of a walk keeps to simple paths. -/
theorem simple_conclude {origin : Origin} (hg : (e.about run).Going [origin] r l)
    (h : (e.about run).Simple f) {stops : List Stop} {halt : Halt}
    (ht : f.SimpleTour (stops, halt)) (now : Int) (flowId : String) :
    ((conclude now run flowId origin (e, halt)).about run).Simple f := by
  obtain ⟨record, live, timers, htimers, heq⟩ := about_conclude_of_going hg now flowId halt
  rw [heq]
  refine ⟨fun entry he => ?_, fun t hm => h.timers t (htimers.subset hm)⟩
  rcases List.mem_append.1 he with he | he
  · exact h.sending entry he
  · cases halt with
    | sending node path rest message =>
      rw [List.mem_singleton.1 he]
      exact ht.halt _ _ _ _ rfl
    | _ => cases he

/-- A walk that goes on keeps to simple paths. -/
theorem simple_of_departure (d : Departure e now run r l t) (h : (e.about run).Simple l.flow) :
    ((e.take now t).about run).Simple l.flow := by
  obtain ⟨a⟩ := exists_arrival d.going now (e.errand run l.flow t)
  have htour : l.flow.SimpleTour (l.flow.tour l.context (e.errand run l.flow t)) :=
    Flow.simpleTour (simple_of_mem_errand h)
  obtain ⟨added, htimers, hadded⟩ := a.timers
  rw [d.flow, d.context] at hadded
  rw [d.take, a.proceed, d.flow, d.context]
  refine simple_conclude a.going ⟨fun entry he => ?_, fun u hu => ?_⟩ htour _ _
  · rw [a.sending, d.sending] at he
    exact h.sending entry (List.mem_filter.1 he).1
  · rw [htimers] at hu
    rcases List.mem_append.1 hu with hu | hu
    · exact h.timers u (d.timers hu)
    · have hwhat : u.what ∈ _ := hadded ▸ List.mem_map_of_mem hu
      obtain ⟨s, hs, hc⟩ := List.mem_flatMap.1 hwhat
      exact (htour.met s hs).delays hc

theorem simple_take_of_going (hc : e.Coherent) (hg : (e.about run).Going [] r l)
    (h : (e.about run).Simple l.flow) (now : Int) (ha : t.Admitted e) :
    ((e.take now t).about run).Simple l.flow := by
  by_cases hw : t.Works e run
  · rcases exists_departure hc.tidy hg hw now with ⟨⟨d⟩⟩ | ⟨⟨d⟩⟩
    · exact simple_of_departure d h
    · rw [d.about]
      refine h.subset (fun entry he => ?_) (List.nil_subset _)
      exact (List.mem_filter.1 (d.sending ▸ he)).1
  have hidle := idle_take hc hg now ha hw
  generalize (e.take now t).about run = after at hidle ⊢
  cases hidle with
  | unchanged => exact h
  | cancelled => exact h.subset (List.Subset.refl _) (List.nil_subset _)
  | undelayed node =>
    obtain ⟨record, live, heq⟩ := about_cancelDelay_of_going hg now node
    rw [heq]
    exact h.subset (List.Subset.refl _) (List.filter_sublist.filter _).subset

/-- **A turn keeps to simple paths**, and comes to such only. -/
theorem simple_take (hc : e.Coherent) (hcourse : (e.about run).Course f context met kept r)
    (h : (e.about run).Simple f) (now : Int) (ha : t.Admitted e) :
    ((e.take now t).about run).Simple f ∧ ∀ s ∈ e.met run t, f.Simple s.path := by
  have hk := hc.known hcourse.record
  cases hk with
  | going r₀ l hg =>
    obtain ⟨rfl, rfl⟩ := hcourse.live l hg.live
    refine ⟨?_, fun s hs => ?_⟩
    · exact simple_take_of_going hc hg h now ha
    · rw [met_of_live hg.live] at hs
      exact (Flow.simpleTour (simple_of_mem_errand h)).met s hs
  | ended r₀ hr hterm hl =>
    have hf := frozen_take hc hr hterm now ha
    refine ⟨h.subset hf.sending.subset (hf.timers ▸ List.Subset.refl _), fun s hs => ?_⟩
    rw [met_of_none hl] at hs
    cases hs

/-- **Whatever follows, a run keeps to simple paths.** -/
theorem simple_follow (hc : e.Coherent) (hcourse : (e.about run).Course f context met kept r)
    (h : (e.about run).Simple f) {history : List (Int × Turn)} (ha : e.Admits history) :
    ((e.follow history).about run).Simple f ∧
      ∀ s ∈ e.metAlong run history, f.Simple s.path := by
  induction history generalizing e met kept r with
  | nil => exact ⟨h, fun s hs => by cases hs⟩
  | cons turn history ih =>
    obtain ⟨now, t⟩ := turn
    obtain ⟨r', hcourse'⟩ := course_take hc hcourse now ha.1
    obtain ⟨hafter, hmet⟩ := simple_take hc hcourse h now ha.1
    obtain ⟨hlast, hrest⟩ := ih (coherent_take hc now ha.1) hcourse' hafter ha.2
    exact ⟨hlast, List.forall_mem_append.2 ⟨hmet, hrest⟩⟩

end Engine

end Campaign
