import Campaign.Proofs.Service.Rejection
/-!
# The runs of a flow, from the first to the last

The list of the runs of a flow has a run for every event that has started one, in the order in which
they did, and no other runs.

* `Service.started` are the runs that events start in a number of steps, each with its moment;
* one step adds to the list of a flow what it starts, and changes nothing else that the list says of
  a run from its start (`book_take`);
* `listed_follow` is about whole histories of a service, and about the numbers that it gives.
-/
namespace Campaign

namespace Engine

variable {e : Engine} {run id : String}

/-- The id, the flow and the start of every run of a flow, in the order of the list of its runs. -/
def book (e : Engine) (id : String) : List (String × String × Timestamp) :=
  (e.runs.ofFlow id).map Run.title

/-- The list of the runs of a flow is part of what stays as it is as long as no run starts. -/
theorem book_eq (e : Engine) (id : String) :
    e.book id = ((e.frame.byFlow.get? id).getD []).filterMap e.frame.titles :=
  List.map_filterMap

theorem book_congr {e' : Engine} (h : e'.frame = e.frame) (id : String) :
    e'.book id = e.book id := by
  rw [book_eq, book_eq, h]

theorem byFlow_start (e : Engine) (now : Int) (run : String) (flow : Flow) (event : Event) :
    (e.start now run flow event).frame.byFlow = e.frame.byFlow.put flow.id
      ((e.frame.byFlow.get? flow.id).getD [] ++ [run]) := by
  have hlog (e : Engine) (message : String) : (e.log now run .info message .null).frame.byFlow =
    e.frame.byFlow := congrArg Frame.byFlow (frame_log _ _ _)
  exact hlog _ _

/-- Every run in the list of a flow is recorded. -/
theorem Reachable.indexed (h : e.Reachable) (hm : run ∈ (e.frame.byFlow.get? id).getD []) :
    (e.frame.titles run).isSome := by
  induction h with
  | idle channel => cases hm
  | @take e t now _ _ ih =>
    by_cases hs : t.Starts
    case neg =>
      rw [frame_take hs] at hm ⊢
      exact ih hm
    cases t with
    | start started flow event =>
      rw [Engine.take, byFlow_start, OrderedMap.get?_put] at hm
      rw [Engine.take, titles_start]
      by_cases hrun : run = started
      · rw [if_pos hrun]
        rfl
      · rw [if_neg hrun]
        by_cases hid : id = flow.id
        · subst hid
          rw [if_pos rfl, Option.getD_some, List.mem_append, List.mem_singleton] at hm
          exact ih (hm.resolve_right hrun)
        · rw [if_neg hid] at hm
          exact ih hm
    | _ => exact hs.elim

/-- **A start adds its run at the end of the list of its flow**, and leaves other lists alone. -/
theorem book_start (h : e.Reachable) (hnew : e.runs.get? run = none) (now : Int) (flow : Flow)
    (event : Event) (id : String) : (e.start now run flow event).book id =
      e.book id ++ if id = flow.id then [(run, flow.id, .utc now)] else [] := by
  -- no list had the run before, and nothing changes about the runs that a list had
  have hkept : ((e.frame.byFlow.get? id).getD []).filterMap
      (e.start now run flow event).frame.titles = e.book id := by
    rw [book_eq]
    refine List.filterMap_congr fun other hm => ?_
    have hrecorded := h.indexed hm
    have hother : other ≠ run := by
      rintro rfl
      simp [frame, hnew] at hrecorded
    rw [titles_start, if_neg hother]
  rw [book_eq, byFlow_start, OrderedMap.get?_put]
  by_cases hid : id = flow.id
  · subst hid
    rw [if_pos rfl, if_pos rfl, Option.getD_some, List.filterMap_append, hkept]
    simp [titles_start]
  · rw [if_neg hid, if_neg hid, hkept, List.append_nil]

end Engine

namespace Service

variable {s : Service} {id run : String} {step : Step} {steps : List Step}

/-- The run of a flow that a step starts, with the moment at which it does. -/
def startedBy (s : Service) (id : String) : Step → Option (String × Int)
  | .operation (.trigger run flowId event) =>
    match (s.trigger run flowId event).2 with
    | .ok started => if flowId = id then some (started, s.host.now) else none
    | .error _ => none
  | _ => none

/-- The runs of a flow that a number of steps start, each with the moment at which it started. -/
def started (id : String) (s : Service) : List Step → List (String × Int)
  | [] => []
  | step :: steps => (s.startedBy id step).toList ++ (s.take step).started id steps

/-- Whether the clock does not go back in a step. -/
def Step.Timely (s : Service) : Step → Prop
  | .operation _ => True
  | .progress host => s.host.now ≤ host.now

/-- Whether the clock does not go back in any of a number of steps. -/
def Timely (s : Service) : List Step → Prop
  | [] => True
  | step :: steps => step.Timely s ∧ (s.take step).Timely steps

/-! ## Operations -/

theorem host_store (s : Service) (f : Flow) : (s.store f).1.host = s.host := by
  unfold store
  split <;> rfl

theorem frame_cancelRuns (hc : s.host.engine.Coherent) (flowId : String) :
    (s.cancelRuns flowId).host.engine.frame = s.host.engine.frame := by
  unfold cancelRuns
  split
  · exact (Host.continues_act_take hc s.host.now (t := .cancelFlowRuns flowId) trivial id).frame
  · rfl

/-- Only an event can start a run. -/
theorem frame_carryOut (hc : s.host.engine.Coherent) {o : Operation}
    (ho : ∀ run id event, o ≠ .trigger run id event) :
    (s.carryOut o).host.engine.frame = s.host.engine.frame := by
  cases o with
  | create id name =>
    simp only [carryOut, create]
    split <;> rfl
  | update id change =>
    simp only [carryOut, update]
    split
    · rfl
    · split
      · rfl
      · rw [host_store]
  | activate id =>
    simp only [carryOut, activate]
    split
    · rfl
    · split
      · rw [host_store]
      · rfl
  | deactivate id =>
    simp only [carryOut, deactivate]
    split
    · rfl
    · rename_i old _
      have hhost := host_store s { old with active := false, updatedAt := s.now }
      rw [frame_cancelRuns (by rw [hhost]; exact hc), hhost]
  | delete id =>
    simp only [carryOut, delete]
    split
    · rename_i flows _
      exact frame_cancelRuns (s := { s with flows }) hc id
    · rfl
  | trigger run id event => exact absurd rfl (ho run id event)
  | cancelRun run =>
    simp only [carryOut, cancelRun]
    split
    · rfl
    · rw [apply_ite Prod.fst]
      dsimp only
      rw [ite_self]
      split
      · have hturn : s.host.engine.Continues (s.host.engine.cancelRun s.host.now run).1 :=
          Engine.Continues.refl.take s.host.now (t := .cancelRun run) trivial id
        have hattempt := Host.continues_attempt (h := s.host)
          (f := fun e => e.cancelRun s.host.now run) (hturn.coherent hc)
        exact (hturn.trans hattempt).frame
      · rfl

/-- What becomes of an event: a run of its flow starts, or nothing happens. -/
theorem trigger_cases (hn : s.flows.Named) (run id : String) (event : Event) :
    (∃ rejection, s.trigger run id event = (s, .error rejection)) ∨
      ∃ f, f.id = id ∧ s.trigger run id event =
        ({ s with host := s.host.act fun e => e.start s.host.now run f event }, .ok run) := by
  unfold trigger
  rw [flow_eq]
  split
  · cases hf : s.flows.get? id with
    | none => exact .inl ⟨_, rfl⟩
    | some f =>
      dsimp only
      split
      · exact .inr ⟨f, hn id f hf, rfl⟩
      · exact .inl ⟨_, rfl⟩
  · exact .inl ⟨_, rfl⟩

/-- No operation takes time. -/
theorem now_carryOut (hn : s.flows.Named) {o : Operation} (ha : o.Admitted s) :
    (s.carryOut o).host.now = s.host.now := by
  have hresult := result_carryOut hn ha
  generalize s.carryOut o = s' at hresult
  cases hresult with
  | rejected => rfl
  | saved f valid active => rfl
  | closed id flows named this others =>
    unfold cancelRuns
    split
    · exact Host.now_act _ _
    · rfl
  | started f run event engaged stored active unknown => exact Host.now_act _ _
  | cancelled run => exact Host.now_attempt _ _

/-! ## Steps -/

/-- What a step does to the records: it starts no run, or it starts a run of a flow. -/
theorem step_cases (h : s.Reachable) (ha : step.Admitted s) :
    (s.take step).host.engine.frame = s.host.engine.frame ∧ (∀ id, s.startedBy id step = none) ∨
      ∃ run f event, s.runs.get? run = none ∧
        (s.take step).host.engine.frame =
          (s.host.engine.start s.host.now run f event).frame ∧
        ∀ id, s.startedBy id step = if f.id = id then some (run, s.host.now) else none := by
  cases step with
  | progress host => exact .inl ⟨Engine.Continues.frame ha, fun _ => rfl⟩
  | operation o =>
    cases o with
    | trigger run flowId event =>
      rcases trigger_cases h.gated.named run flowId event with ⟨rejection, heq⟩ | ⟨f, rfl, heq⟩
      · refine .inl ⟨?_, fun id => ?_⟩
        · simp only [take, carryOut, heq]
        · simp only [startedBy, heq]
      · refine .inr ⟨run, f, event, ha, ?_, fun id => ?_⟩
        · have hturn := h.engine.take s.host.now (t := .start run f event) ha
          simp only [take, carryOut, heq]
          exact (Host.continues_act hturn.coherent).frame
        · simp only [startedBy, heq]
    | _ => exact .inl ⟨frame_carryOut h.engine.coherent (by simp), fun _ => rfl⟩

/-- **A step adds to the list of a flow the run that it starts, if it starts one.** -/
theorem book_take (h : s.Reachable) (ha : step.Admitted s) (id : String) :
    (s.take step).host.engine.book id = s.host.engine.book id ++
      (s.startedBy id step).toList.map fun t => (t.1, id, .utc t.2) := by
  rcases step_cases h ha with ⟨hframe, hnone⟩ | ⟨run, f, event, hnew, hframe, hsome⟩
  · rw [Engine.book_congr hframe, hnone]
    simp
  · rw [Engine.book_congr hframe, Engine.book_start h.engine hnew, hsome]
    by_cases hid : f.id = id
    · simp [hid]
    · simp [hid, Ne.symm hid]

/-- A run that a step starts is new, and recorded from then on. -/
theorem new_of_startedBy (h : s.Reachable) (ha : step.Admitted s) {t : String × Int}
    (ht : t ∈ s.startedBy id step) :
    s.runs.get? t.1 = none ∧ ((s.take step).runs.get? t.1).isSome ∧ t.2 = s.host.now := by
  rcases step_cases h ha with ⟨-, hnone⟩ | ⟨run, f, event, hnew, hframe, hsome⟩
  · rw [hnone] at ht
    cases ht
  · rw [hsome] at ht
    split at ht
    · obtain rfl := Option.some.inj ht
      have htitles := congrFun (congrArg Frame.titles hframe) run
      rw [Engine.titles_start, if_pos rfl] at htitles
      refine ⟨hnew, ?_, rfl⟩
      obtain ⟨r, hr, -⟩ := Option.map_eq_some_iff.1 htitles
      exact Option.isSome_iff_exists.2 ⟨r, hr⟩
    · cases ht

theorem recorded_take (h : s.Reachable) (ha : step.Admitted s)
    (hr : (s.runs.get? run).isSome) : ((s.take step).runs.get? run).isSome := by
  have htitle (e : Engine) : (e.frame.titles run).isSome = (e.runs.get? run).isSome :=
    Option.isSome_map
  rw [runs, ← htitle] at hr ⊢
  rcases step_cases h ha with ⟨hframe, -⟩ | ⟨started, f, event, -, hframe, -⟩
  · rwa [hframe]
  · rw [hframe, Engine.titles_start]
    split
    · rfl
    · exact hr

theorem now_take (h : s.Reachable) (ha : step.Admitted s) (ht : step.Timely s) :
    s.host.now ≤ (s.take step).host.now := by
  cases step with
  | operation o => exact Int.le_of_eq (now_carryOut h.gated.named ha).symm
  | progress host => exact ht

/-! ## Histories -/

/-- **The list of the runs of a flow grows by the runs that start.** -/
theorem book_follow (h : s.Reachable) (ha : s.Admits steps) (id : String) :
    (s.follow steps).host.engine.book id = s.host.engine.book id ++
      (s.started id steps).map fun t => (t.1, id, .utc t.2) := by
  induction steps generalizing s with
  | nil => simp [follow, started]
  | cons step steps ih =>
    rw [follow, ih (h.take ha.1) ha.2, book_take h ha.1, started, List.map_append,
      List.append_assoc]

/-- Runs that start are new. -/
theorem new_of_started (h : s.Reachable) (ha : s.Admits steps) {t : String × Int}
    (ht : t ∈ s.started id steps) : s.runs.get? t.1 = none := by
  induction steps generalizing s with
  | nil => cases ht
  | cons step steps ih =>
    rcases List.mem_append.1 ht with ht | ht
    · exact (new_of_startedBy h ha.1 (Option.mem_toList.1 ht)).1
    · have hnone := ih (h.take ha.1) ha.2 ht
      by_contra hsome
      have hrecorded := recorded_take h ha.1 (Option.isSome_iff_ne_none.2 hsome)
      rw [hnone] at hrecorded
      cases hrecorded

/-- No run starts twice. -/
theorem nodup_started (h : s.Reachable) (ha : s.Admits steps) (id : String) :
    ((s.started id steps).map Prod.fst).Nodup := by
  induction steps generalizing s with
  | nil => exact List.nodup_nil
  | cons step steps ih =>
    have hrest := ih (h.take ha.1) ha.2
    rw [started]
    cases hstep : s.startedBy id step with
    | none => exact hrest
    | some t =>
      refine List.nodup_cons.2 ⟨fun hm => ?_, hrest⟩
      obtain ⟨t', ht', heq⟩ := List.mem_map.1 hm
      have hnone := new_of_started (h.take ha.1) ha.2 ht'
      have hrecorded := (new_of_startedBy h ha.1 hstep).2.1
      rw [← heq, hnone] at hrecorded
      cases hrecorded

theorem now_le_of_started (h : s.Reachable) (ha : s.Admits steps) (ht : s.Timely steps)
    {t : String × Int} (hm : t ∈ s.started id steps) : s.host.now ≤ t.2 := by
  induction steps generalizing s with
  | nil => cases hm
  | cons step steps ih =>
    rcases List.mem_append.1 hm with hm | hm
    · exact Int.le_of_eq (new_of_startedBy h ha.1 (Option.mem_toList.1 hm)).2.2.symm
    · exact Int.le_trans (now_take h ha.1 ht.1) (ih (h.take ha.1) ha.2 ht.2 hm)

/-- Runs start in the order of their moments. -/
theorem sorted_started (h : s.Reachable) (ha : s.Admits steps) (ht : s.Timely steps) (id : String) :
    (s.started id steps).Pairwise fun t t' => t.2 ≤ t'.2 := by
  induction steps generalizing s with
  | nil => exact .nil
  | cons step steps ih =>
    have hrest := ih (h.take ha.1) ha.2 ht.2
    rw [started]
    cases hstep : s.startedBy id step with
    | none => exact hrest
    | some t =>
      refine List.pairwise_cons.2 ⟨fun t' ht' => ?_, hrest⟩
      rw [(new_of_startedBy h ha.1 hstep).2.2]
      exact Int.le_trans (now_take h ha.1 ht.1)
        (now_le_of_started (h.take ha.1) ha.2 ht.2 ht')

/-- A list says of every run what its record says. -/
theorem run_of_listed (h : s.Reachable) {r : Run} (hr : r ∈ s.listRuns id) :
    s.run r.id = .ok r := by
  obtain ⟨run, -, hget⟩ := List.mem_filterMap.1 hr
  have hid : r.id = run := h.engine.filed hget
  rw [← hid] at hget
  have hrun : s.runs.get? r.id = some r := hget
  rw [Service.run, hrun]

/-- The numbers of a flow are those of the list of its runs. -/
theorem analytics_eq {f : Flow} (hf : s.flows.get? id = some f) : s.analytics id =
    .ok ⟨(s.host.engine.book id).length,
      (s.host.engine.book id).getLast?.map fun title => title.2.2.iso⟩ := by
  rw [analytics, flow_eq, hf]
  simp only [Except.map, Engine.book, List.length_map, List.getLast?_map, Option.map_map]
  rfl

/-- **The runs of a flow are complete.**  Whatever happens to a service, the list of the runs of a
flow has just the runs that events have started, each once and in the order in which they started;
so it is also when the flow has been changed, deactivated or deleted.  The list gives the records as
they are.  While there is such a flow its numbers count these runs and name the moment of the last
start, and no start was later. -/
theorem listed_follow (sender : Sender) (now : Int) (engaged : Bool) {steps : List Step}
    (ha : Admits { host := .create sender now, engaged } steps)
    (ht : Timely { host := .create sender now, engaged } steps) (id : String) :
    let fresh : Service := { host := .create sender now, engaged }
    let s := fresh.follow steps
    let starts := fresh.started id steps
    (s.listRuns id).map Run.title = starts.map (fun t => (t.1, id, .utc t.2)) ∧
      (starts.map Prod.fst).Nodup ∧
      (∀ r ∈ s.listRuns id, s.run r.id = .ok r) ∧
      (∀ f, s.flows.get? id = some f → s.analytics id =
        .ok ⟨starts.length, starts.getLast?.map fun t => (Timestamp.utc t.2).iso⟩) ∧
      ∀ last ∈ starts.getLast?, ∀ t ∈ starts, t.2 ≤ last.2 := by
  intro fresh s starts
  have hfresh : fresh.Reachable := .fresh sender now engaged
  have hbook : s.host.engine.book id = starts.map fun t => (t.1, id, .utc t.2) :=
    book_follow hfresh ha id
  refine ⟨hbook, nodup_started hfresh ha id, ?_, ?_, ?_⟩
  · intro r hr
    exact run_of_listed (hfresh.follow ha) hr
  · intro f hf
    rw [analytics_eq hf, hbook, List.length_map, List.getLast?_map, Option.map_map]
    rfl
  · intro last hlast t hm
    obtain ⟨before, heq⟩ := List.getLast?_eq_some_iff.1 hlast
    have hsorted := sorted_started hfresh ha ht id
    change starts.Pairwise _ at hsorted
    rw [heq] at hm hsorted
    rcases List.mem_append.1 hm with hm | hm
    · exact (List.pairwise_append.1 hsorted).2.2 t hm last List.mem_cons_self
    · exact Int.le_of_eq (congrArg Prod.snd (List.mem_singleton.1 hm))

theorem Admits.append {more : List Step} (h : s.Admits steps)
    (hmore : (s.follow steps).Admits more) : s.Admits (steps ++ more) := by
  induction steps generalizing s with
  | nil => exact hmore
  | cons step steps ih => exact ⟨h.1, ih h.2 hmore⟩

theorem admitted_trigger {flowId : String} {event : Event} (h : (s.runs.get? run).isNone = true) :
    (Step.operation (.trigger run flowId event)).Admitted s :=
  Option.isNone_iff_eq_none.1 h

/-- What a host does on its own can happen. -/
theorem Reachable.admitted_progress (h : s.Reachable) (micros : Int) :
    (Step.progress (s.host.settle.advance micros)).Admitted s :=
  (Host.continues_settle h.gated.coherent).trans
    (Host.continues_advance h.settle.gated.coherent micros)

/-- The greeting is made and activated, and an order starts a run. -/
def opening : List Step :=
  [.operation (.create "f" "Greeting"),
    .operation (.update "f" ⟨none, some greeting.nodes, some greeting.edges⟩),
    .operation (.activate "f"), .operation (.trigger "r" "f" order)]

/-- An hour later, while the run waits for its second message, the greeting is deactivated; an order
that comes then is turned down.  When it has been activated again another order starts a run. -/
def reopening : List Step :=
  let s := follow { host := .create (.mock "mail" 5) 0 } opening
  [.progress (s.host.settle.advance 3600000000), .operation (.deactivate "f"),
    .operation (.trigger "p" "f" order), .operation (.activate "f"),
    .operation (.trigger "q" "f" order)]

/-- Both runs are on the list, and the numbers name the later start. -/
theorem reopening_listed :
    let s := follow { host := .create (.mock "mail" 5) 0 } (opening ++ reopening)
    (s.listRuns "f").map Run.title = [("r", "f", .utc 0), ("q", "f", .utc 3600000000)] ∧
      s.analytics "f" = .ok ⟨2, some "1970-01-01T01:00:00+00:00"⟩ := by
  let fresh : Service := { host := .create (.mock "mail" 5) 0 }
  have hopening : fresh.Admits opening := by
    refine ⟨rfl, trivial, trivial, admitted_trigger ?_, trivial⟩
    decide +kernel
  have hopened : (fresh.follow opening).Reachable :=
    (Reachable.fresh (.mock "mail" 5) 0 true).follow hopening
  have hreopening : (fresh.follow opening).Admits reopening := by
    refine ⟨hopened.admitted_progress 3600000000, trivial, admitted_trigger ?_, trivial,
      admitted_trigger ?_, trivial⟩
    · decide +kernel
    · decide +kernel
  have hclock : (fresh.follow opening).host.now ≤
      ((fresh.follow opening).host.settle.advance 3600000000).now := by decide +kernel
  have htimely : fresh.Timely (opening ++ reopening) :=
    ⟨trivial, trivial, trivial, trivial, hclock, trivial, trivial, trivial, trivial, trivial⟩
  have hstarts : fresh.started "f" (opening ++ reopening) = [("r", 0), ("q", 3600000000)] := by
    decide +kernel
  obtain ⟨hlist, -, -, hnumbers, -⟩ :=
    listed_follow (.mock "mail" 5) 0 true (hopening.append hreopening) htimely "f"
  have hflow : ((fresh.follow (opening ++ reopening)).flows.get? "f").isSome = true := by
    decide +kernel
  obtain ⟨f, hf⟩ := Option.isSome_iff_exists.1 hflow
  have htext : (Timestamp.utc 3600000000).iso = "1970-01-01T01:00:00+00:00" := by decide +kernel
  refine ⟨hlist.trans ?_, (hnumbers f hf).trans ?_⟩
  · rw [hstarts]
    rfl
  · rw [hstarts]
    simp [htext]

end Service

end Campaign
