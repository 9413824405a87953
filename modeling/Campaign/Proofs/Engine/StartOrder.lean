import Campaign.Proofs.Engine.Waning
/-!
# Live runs stand in the order of their starts

A start puts its run behind those that are live, and nothing else puts a run anywhere.  So the live
runs of a flow are those of the runs started for it that are still live, in the order in which they
started (`liveRunsOf_follow`).

`Engine.InOrder` is the invariant; a turn keeps it (`inOrder_take`), and so does a history.
-/
namespace Campaign

/-- The run that starts in a turn, with the id of its flow. -/
def Turn.started? : Turn → Option (String × String)
  | .start run flow _ => some (run, flow.id)
  | _ => none

/-- A part of a list without repetitions is told by its items. -/
theorem eq_filter_of_sublist {α : Type} [DecidableEq α] {a b : List α} (h : a.Sublist b)
    (hb : b.Nodup) : a = b.filter fun x => decide (x ∈ a) := by
  induction h with
  | slnil => rfl
  | @cons a b x h ih =>
    obtain ⟨hx, hb⟩ := List.nodup_cons.1 hb
    have hnot : x ∉ a := fun hm => hx (h.subset hm)
    rw [List.filter_cons_of_neg (by simpa using hnot)]
    exact ih hb
  | @cons_cons a b x h ih =>
    obtain ⟨hx, hb⟩ := List.nodup_cons.1 hb
    rw [List.filter_cons_of_pos (by simp)]
    have hrest : b.filter (fun y => decide (y ∈ x :: a)) = b.filter fun y => decide (y ∈ a) := by
      refine List.filter_congr fun y hy => ?_
      have hne : y ≠ x := fun heq => hx (heq ▸ hy)
      simp [hne]
    rw [hrest, ← ih hb]

namespace Engine

/-- The runs that start in a history, each with the id of its flow, in the order in which they
start. -/
def starts (history : List (Int × Turn)) : List (String × String) :=
  history.filterMap fun turn => turn.2.started?

/-- The runs of a flow that start in a history, in the order in which they start. -/
def startsOf (flowId : String) (history : List (Int × Turn)) : List String :=
  ((starts history).filter fun s => s.2 == flowId).map Prod.fst

/-- Whether the live runs of an engine stand in the order in which runs have started. -/
structure InOrder (started : List (String × String)) (e : Engine) : Prop where
  distinct : (started.map Prod.fst).Nodup
  recorded : ∀ s ∈ started, (e.runs.get? s.1).isSome
  live : e.liveRuns.Sublist (started.map Prod.fst)
  flows : ∀ run l, e.live.get? run = some l → (run, l.flow.id) ∈ started

variable {e : Engine} {started : List (String × String)} {now : Int} {run flowId : String}

theorem live_log (level : LogLevel) (message : String) (payload : Value) :
    (e.log now run level message payload).live = e.live := by
  unfold log withRuns
  split <;> rfl

theorem live_start_eq (e : Engine) (now : Int) (run : String) (flow : Flow) (event : Event) :
    (e.start now run flow event).live = e.live.put run { flow, event } := by
  show Engine.live (Engine.log _ now run .info _ .null) = _
  rw [live_log]

theorem InOrder.start (h : InOrder started e) (hc : e.Coherent) (hnew : e.runs.get? run = none)
    (now : Int) (flow : Flow) (event : Event) :
    InOrder (started ++ [(run, flow.id)]) (e.start now run flow event) where
  distinct := by
    rw [List.map_append, List.nodup_append]
    refine ⟨h.distinct, List.nodup_cons.2 ⟨List.not_mem_nil, .nil⟩, ?_⟩
    rintro s hs t ht rfl
    obtain ⟨entry, hentry, rfl⟩ := List.mem_map.1 hs
    have hrecorded := h.recorded entry hentry
    rw [List.mem_singleton.1 ht, hnew] at hrecorded
    cases hrecorded
  recorded := by
    intro s hs
    show ((e.start now run flow event).about s.1).record.isSome
    by_cases heq : s.1 = run
    · rw [heq, about_start]
      rfl
    · rw [about_start_of_ne heq]
      rcases List.mem_append.1 hs with hs | hs
      · exact h.recorded s hs
      · rw [List.mem_singleton.1 hs] at heq
        exact absurd rfl heq
  live := by
    have hnone : e.live.get? run = none := (hc.unknown hnew).live
    rw [liveRuns, live_start_eq, OrderedMap.keys_put_of_none hnone, List.map_append]
    exact h.live.append (.refl _)
  flows := by
    intro s l hl
    rw [live_start_eq, OrderedMap.get?_put] at hl
    split at hl
    · rename_i heq
      rw [heq, ← Option.some.inj hl]
      exact List.mem_append_right _ (List.mem_singleton.2 rfl)
    · exact List.mem_append_left _ (h.flows s l hl)

/-- A turn keeps the live runs in order. -/
theorem inOrder_take (h : InOrder started e) (hc : e.Coherent) (now : Int) {t : Turn}
    (ha : t.Admitted e) : InOrder (started ++ t.started?.toList) (e.take now t) := by
  by_cases hs : t.Starts
  · cases t with
    | start run flow event => exact h.start hc ha now flow event
    | _ => exact hs.elim
  · have hwanes := wanes_take hc now hs
    have hnone : t.started? = none := by
      cases t with
      | start run flow event => exact absurd trivial hs
      | _ => rfl
    rw [hnone, Option.toList_none, List.append_nil]
    refine ⟨h.distinct, fun s hs => hwanes.recorded s.1 (h.recorded s hs),
      hwanes.order.trans h.live, fun run l' hl' => ?_⟩
    obtain ⟨l, hl, hflow, -⟩ := hwanes.live run l' hl'
    rw [hflow]
    exact h.flows run l hl

theorem inOrder_follow (h : InOrder started e) (hc : e.Coherent) {history : List (Int × Turn)}
    (ha : e.Admits history) : InOrder (started ++ starts history) (e.follow history) := by
  induction history generalizing e started with
  | nil =>
    rw [starts, List.filterMap_nil, List.append_nil]
    exact h
  | cons turn history ih =>
    obtain ⟨now, t⟩ := turn
    have hstarts : starts ((now, t) :: history) = t.started?.toList ++ starts history := by
      unfold starts
      rw [List.filterMap_cons]
      cases t.started? <;> rfl
    rw [hstarts, ← List.append_assoc]
    exact ih (inOrder_take h hc now ha.1) (coherent_take hc now ha.1) ha.2

/-- Which of the runs that have started are live runs of a flow. -/
theorem InOrder.mem_liveRunsOf_iff (h : InOrder started e) {s : String × String}
    (hs : s ∈ started) : s.1 ∈ e.liveRunsOf flowId ↔ e.isLive s.1 = true ∧ s.2 = flowId := by
  have hflow : ∀ l, e.live.get? s.1 = some l → l.flow.id = s.2 := by
    intro l hl
    have hboth := (Entries.mem_iff_lookup h.distinct).1 (h.flows s.1 l hl)
    exact Option.some.inj (hboth.symm.trans ((Entries.mem_iff_lookup h.distinct).1 hs))
  rw [mem_liveRunsOf]
  constructor
  · rintro ⟨l, hl, rfl⟩
    exact ⟨Option.isSome_iff_exists.2 ⟨l, hl⟩, (hflow l hl).symm⟩
  · rintro ⟨hlive, rfl⟩
    obtain ⟨l, hl⟩ := Option.isSome_iff_exists.1 hlive
    exact ⟨l, hl, hflow l hl⟩

theorem InOrder.liveRunsOf_eq (h : InOrder started e) (flowId : String) : e.liveRunsOf flowId =
    ((started.filter fun s => s.2 == flowId).map Prod.fst).filter e.isLive := by
  have hsub : (e.liveRunsOf flowId).Sublist (started.map Prod.fst) :=
    (List.filter_sublist.map Prod.fst).trans h.live
  rw [eq_filter_of_sublist hsub h.distinct, List.filter_map, List.filter_map, List.filter_filter]
  refine congrArg (List.map Prod.fst) (List.filter_congr fun s hs => ?_)
  rw [Bool.eq_iff_iff]
  simp only [Function.comp_apply, decide_eq_true_eq, Bool.and_eq_true, beq_iff_eq]
  exact h.mem_liveRunsOf_iff hs

/-- **The live runs of a flow** are those of the runs started for it that are still live, in the
order in which they started. -/
theorem liveRunsOf_follow (channel : String) {history : List (Int × Turn)}
    (ha : Admits { channel } history) (flowId : String) :
    (follow { channel } history).liveRunsOf flowId =
      (startsOf flowId history).filter (follow { channel } history).isLive := by
  have hidle : InOrder [] { channel } := ⟨.nil, by simp, .slnil, fun _ _ hl => by cases hl⟩
  have h := inOrder_follow hidle (coherent_idle channel) ha
  rw [List.nil_append] at h
  exact h.liveRunsOf_eq flowId

end Engine

end Campaign
