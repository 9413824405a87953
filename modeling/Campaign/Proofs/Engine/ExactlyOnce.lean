import Campaign.Proofs.Engine.Steps
/-!
# Every branch is carried out exactly once

From its start to its end a run explores its tree (`Share.Course`): whatever happens meanwhile, it
comes to the stops of the tree one by one, each after the one above it and none twice, and when it
completes without a delay having been called off it has come to all of them.  So each position at
which a node is to be processed is processed at most once, and exactly once in the end
(`Reachable.exactly_once`); the log of the run tells of it in the same order.
-/
namespace Campaign

/-- Whether what is said begins with some words. -/
def Begins (words : String) (x : LogLevel × String) : Bool :=
  words.toList.isPrefixOf x.2.toList

/-- Whether an entry in a log tells that a node is processed. -/
def announces : LogLevel × String → Bool := Begins "Processing node: "

/-- The node that is processed at a position. -/
def Flow.nodeAt (f : Flow) (context : Value) (p : Position) : Option Node :=
  (f.stopAt context p).bind f.processed?

/-- The course of a run: it has come to some stops of its tree and is still to come to others, and
its log has a remark for each. -/
structure Share.Course (f : Flow) (context : Value) (met : List Stop) (kept : Prop) (r : Run)
    (a : Share) : Prop where
  record : a.record = some r
  live : ∀ l, a.live = some l → l.flow = f ∧ l.context = context
  explored : Explored f context met (a.pending f) (kept ∧ r.status ≠ .failed)
  sayings : ∀ q : LogLevel × String → Bool, (∀ x, Aside x → q x = false) →
    r.sayings.filter q = (met.flatMap (f.remarks context)).filter q

/-- Nothing is still to come when a run has completed. -/
theorem Share.Known.pending_eq_nil {a : Share} {r : Run} (h : a.Known) (hr : a.record = some r)
    (hs : r.status = .completed) (f : Flow) : a.pending f = [] := by
  have hterm : r.status.terminal := by rw [hs]; rfl
  obtain ⟨-, htm, hdone⟩ := h.of_terminal hr hterm
  obtain ⟨hu, hsend⟩ := hdone hs
  simp [Share.pending, hu, hsend, htm]

theorem Share.Course.mono {f : Flow} {context : Value} {met : List Stop} {kept kept' : Prop}
    {r : Run} {a : Share} (h : a.Course f context met kept r) (hk : kept' → kept) :
    a.Course f context met kept' r where
  record := h.record
  live := h.live
  explored := by
    obtain ⟨done, opened, hled⟩ := h.explored
    exact ⟨done, opened, hled.mono fun hw => ⟨hk hw.1, hw.2⟩⟩
  sayings := h.sayings

namespace Engine

/-- The stops that a run comes to in a history, in order. -/
def metAlong (e : Engine) (run : String) : List (Int × Turn) → List Stop
  | [] => []
  | (now, t) :: history => e.met run t ++ (e.take now t).metAlong run history

/-- Whether no delay of a run is called off in a history. -/
def Keeps (e : Engine) (run : String) (history : List (Int × Turn)) : Prop :=
  e.Along (fun e t => t.Keeps e run) history

variable {e : Engine} {now : Int} {run : String} {f : Flow} {context : Value} {met : List Stop}
  {kept : Prop} {r : Run} {l : Live}

/-! ## The course of a run -/

theorem course_start (h : (e.about run).Unknown) (now : Int) (flow : Flow) (event : Event) :
    ∃ r, ((e.start now run flow event).about run).Course flow (.object event.context) [] True
      r := by
  rw [about_start]
  refine ⟨_, rfl, ?_, ?_, ?_⟩
  · rintro l hl
    obtain rfl := Option.some.inj hl
    exact ⟨rfl, rfl⟩
  · refine ⟨_, _, ((Ledger.start flow (.object event.context)).perm ?_).mono fun _ => trivial⟩
    simp [Share.pending, h.unstarted, h.timers, h.sending]
  · intro q hq
    have hfalse := hq _ (.started flow.name)
    simp [Run.sayings, Run.logged, LogEntry.said, hfalse]

/-- A turn takes a run that is going further on its course. -/
theorem course_of_turned {a b : Share} {calm kept' : Prop} {ground : String → Prop}
    {met' : List Stop} {r' : Run} (h : a.Course f context met kept r)
    (ht : a.Turned f context met' kept' calm ground r r' b) (hr : r.status ≠ .failed) :
    b.Course f context (met ++ met') (kept ∧ kept') r' where
  record := ht.record
  live := ht.live
  explored := by
    obtain ⟨done, opened, hled⟩ := ht.explored met _ h.explored
    exact ⟨done, opened, hled.mono fun hw => ⟨⟨hw.1.1, hr⟩, hw.1.2, hw.2⟩⟩
  sayings := by
    intro q hq
    obtain ⟨opening, closing, hsay, haside, -⟩ := ht.sayings
    have hopening : opening.filter q = [] := List.filter_eq_nil_iff.2 fun x hx => by
      simp [hq x (haside x (List.mem_append_left _ hx))]
    have hclosing : closing.filter q = [] := List.filter_eq_nil_iff.2 fun x hx => by
      simp [hq x (haside x (List.mem_append_right _ hx))]
    simp [hsay, hopening, hclosing, h.sayings q hq]

/-- A run that has ended has come to the end of its course. -/
theorem course_of_frozen {a b : Share} {kept' : Prop} (hk : a.Known)
    (h : a.Course f context met kept r) (hf : a.Frozen b) (ht : r.status.terminal) :
    b.Course f context met (kept ∧ kept') r where
  record := hf.record.trans h.record
  live := by
    rw [hf.live]
    exact h.live
  explored := by
    obtain ⟨done, opened, hled⟩ := h.explored
    have hsub : (b.pending f).Sublist (a.pending f) :=
      Share.pending_sublist hf.unstarted hf.sending (hf.timers ▸ .refl _) f
    by_cases hs : r.status = .failed
    · have hgiven : ¬ ((kept ∧ kept') ∧ r.status ≠ .failed) := fun hw => hw.2 hs
      obtain ⟨opened', hled⟩ := hled.drop hsub.subperm hgiven
      exact ⟨done, opened', hled⟩
    · have hc : r.status = .completed := by
        cases hst : r.status <;> simp_all [RunStatus.terminal, RunStatus.allowed]
      rw [hk.pending_eq_nil h.record hc f] at hsub hled
      rw [List.sublist_nil.1 hsub]
      exact ⟨done, opened, hled.mono fun hw => ⟨hw.1.1, hw.2⟩⟩
  sayings := h.sayings

theorem course_take (hc : e.Coherent) (h : (e.about run).Course f context met kept r) (now : Int)
    {t : Turn} (ha : t.Admitted e) : ∃ r', ((e.take now t).about run).Course f context
      (met ++ e.met run t) (kept ∧ t.Keeps e run) r' := by
  have hk := hc.known h.record
  cases hk with
  | going r₀ l hg =>
    obtain rfl : r₀ = r := Option.some.inj (hg.record.symm.trans h.record)
    obtain ⟨hflow, hcon⟩ := h.live l hg.live
    obtain ⟨r', ht⟩ := turned_take hc hg now ha
    rw [hflow, hcon] at ht
    exact ⟨r', course_of_turned h ht hg.not_failed⟩
  | ended r₀ hr hterm hl =>
    obtain rfl : r₀ = r := Option.some.inj (hr.symm.trans h.record)
    have hget : e.live.get? run = none := hl
    have hmet : e.met run t = [] := by simp only [Engine.met, hget]
    rw [hmet, List.append_nil]
    exact ⟨r₀, course_of_frozen (hc.known h.record) h (frozen_take hc hr hterm now ha) hterm⟩

/-- **A run is on its course all along.** -/
theorem course_follow (hc : e.Coherent) (h : (e.about run).Course f context met kept r)
    {history : List (Int × Turn)} (ha : e.Admits history) :
    ∃ r', ((e.follow history).about run).Course f context (met ++ e.metAlong run history)
      (kept ∧ e.Keeps run history) r' := by
  induction history generalizing e met kept r with
  | nil =>
    rw [metAlong, List.append_nil]
    exact ⟨r, h.mono And.left⟩
  | cons turn history ih =>
    obtain ⟨now, t⟩ := turn
    obtain ⟨r', h'⟩ := course_take hc h now ha.1
    obtain ⟨r'', h''⟩ := ih (coherent_take hc now ha.1) h' ha.2
    rw [List.append_assoc] at h''
    exact ⟨r'', h''.mono fun hw => ⟨⟨hw.1, hw.2.1⟩, hw.2.2⟩⟩

end Engine

/-! ## What the log tells -/

theorem announces_aside {x : LogLevel × String} (h : Aside x) : announces x = false := by
  cases h <;> simp [announces, Begins, String.toList_append, List.isPrefixOf]

theorem announces_announcement (n : Node) : announces n.announcement = true := by
  simp [announces, Begins, Node.announcement, String.toList_append, List.isPrefixOf]

theorem announces_remarks {n : Node} {context : Value} {x : LogLevel × String}
    (h : x ∈ n.remarks context ++ n.complaint (n.outcome context)) : announces x = false := by
  rcases List.mem_append.1 h with h | h
  · cases Node.remark_of_mem h <;>
      simp [announces, Begins, String.toList_append, List.isPrefixOf]
  · unfold Node.complaint at h
    split at h
    · rw [List.mem_singleton.1 h]
      simp [announces, Begins, String.toList_append, List.isPrefixOf]
    · cases h

/-- Among the remarks at a stop just one tells that its node is processed, if it is. -/
theorem filter_remarks (f : Flow) (context : Value) (s : Stop) :
    (f.remarks context s).filter announces = ((f.processed? s).map Node.announcement).toList := by
  cases hn : f.node? s.node with
  | none =>
    rw [Flow.remarks_of_none hn, Flow.processed?_of_none hn]
    simp [announces, Begins, String.toList_append, List.isPrefixOf]
  | some n =>
    by_cases hp : n.id ∈ s.path
    · rw [Flow.remarks_of_mem hn hp, Flow.processed?_of_mem hn hp]
      simp [announces, Begins, String.toList_append, List.isPrefixOf]
    · have hs := Flow.processed?_of_not_mem hn hp
      have hrest : (n.remarks context ++ n.complaint (n.outcome context)).filter announces = [] :=
        List.filter_eq_nil_iff.2 fun x hx => by simp [announces_remarks hx]
      rw [Flow.remarks_of_processed hs, hs, List.filter_cons, announces_announcement, hrest]
      rfl

/-! ## Positions at which a node is processed -/

section

variable {f : Flow} {context : Value} {met rest : List Stop} {done opened : List Position}
  {whole : Prop}

/-- The position above one that has a stop has a node that is processed, unless it is the top. -/
theorem Flow.nodeAt_of_child {i : Nat} {p : Position} (h : (f.stopAt context (i :: p)).isSome) :
    p = [] ∨ (f.nodeAt context p).isSome := by
  have hi : i < (f.below context p).length := by simpa [Flow.stopAt] using h
  rcases Flow.stopAt_isSome_of_below hi with rfl | hs
  · exact .inl rfl
  · refine .inr ?_
    obtain ⟨s, hs⟩ := Option.isSome_iff_exists.1 hs
    rw [Flow.below_of_stopAt hs, Flow.children] at hi
    rw [Flow.nodeAt, hs, Option.bind_some]
    cases hp : f.processed? s with
    | some n => rfl
    | none => simp [hp] at hi

theorem Ledger.stopAt_of_mem (h : Ledger f context met rest done opened whole) {p : Position}
    (hp : p ∈ done) : ∃ s ∈ met, f.stopAt context p = some s := by
  have hmem : f.stopAt context p ∈ met.map some := h.met ▸ List.mem_map_of_mem hp
  obtain ⟨s, hs, heq⟩ := List.mem_map.1 hmem
  exact ⟨s, hs, heq.symm⟩

theorem Ledger.exists_stopAt (h : Ledger f context met rest done opened whole) {s : Stop}
    (hs : s ∈ met) : ∃ p ∈ done, f.stopAt context p = some s := by
  have hmem : some s ∈ done.map (f.stopAt context) := h.met ▸ List.mem_map_of_mem hs
  exact List.mem_map.1 hmem

/-- The positions at which a node was processed, each after the one above it. -/
theorem Ledger.descending_filter (h : Ledger f context met rest done opened whole) :
    Descending (done.filter fun p => (f.nodeAt context p).isSome) := by
  intro before p after heq
  obtain ⟨before', after', rfl, rfl, hafter⟩ := List.filter_eq_append_iff.1 heq
  obtain ⟨between, after'', rfl, hnone, -, -⟩ := List.filter_eq_cons_iff.1 hafter
  have hdesc := h.descending (before' ++ between) p after'' (by simp)
  obtain ⟨s, -, hs⟩ := h.stopAt_of_mem (p := p) (by simp)
  cases p with
  | nil => cases hs
  | cons i q =>
    have hsome : (f.stopAt context (i :: q)).isSome := by rw [hs]; rfl
    refine (Flow.nodeAt_of_child hsome).imp_right fun hq => ?_
    rcases hdesc with hnil | hmem
    · obtain rfl : q = [] := hnil
      cases hq
    · rcases List.mem_append.1 hmem with hmem | hmem
      · exact List.mem_filter.2 ⟨hmem, hq⟩
      · exact absurd hq (hnone q hmem)

/-- The stops at the positions at which a node was processed. -/
theorem Ledger.map_stopAt_filter (h : Ledger f context met rest done opened whole) :
    (done.filter fun p => (f.nodeAt context p).isSome).map (f.stopAt context) =
      (met.filter fun s => (f.processed? s).isSome).map some := by
  have hmap := congrArg (List.filter fun s => (s.bind f.processed?).isSome) h.met
  rwa [List.filter_map, List.filter_map] at hmap

/-- What the log tells of the stops, position by position. -/
theorem Ledger.announcements (h : Ledger f context met rest done opened whole) :
    (met.flatMap (f.remarks context)).filter announces =
      (done.filter fun p => (f.nodeAt context p).isSome).filterMap
        fun p => (f.nodeAt context p).map Node.announcement := by
  have hnode : ∀ p, (f.nodeAt context p).map Node.announcement =
      (f.stopAt context p).bind fun s => (f.processed? s).map Node.announcement := by
    intro p
    rw [Flow.nodeAt, Option.map_bind]
    rfl
  calc (met.flatMap (f.remarks context)).filter announces
      = met.flatMap fun s => ((f.processed? s).map Node.announcement).toList := by
        rw [List.filter_flatMap]
        simp only [filter_remarks]
    _ = (met.map some).filterMap
          fun s => s.bind fun s => (f.processed? s).map Node.announcement := by
        rw [List.filterMap_map, List.filterMap_eq_flatMap_toList]
        rfl
    _ = done.filterMap fun p => (f.nodeAt context p).map Node.announcement := by
        rw [← h.met, List.filterMap_map]
        simp only [hnode]
        rfl
    _ = _ := by
        rw [List.filterMap_filter]
        refine List.filterMap_congr fun p _ => ?_
        cases f.nodeAt context p <;> rfl

end

/-- **Every branch of a run is carried out exactly once.**  In the order in which the run of a flow
processes its nodes, these are at distinct positions of the tree, each after the one above it; its
log tells of the same nodes in the same order; and when the run completes and none of its delays was
called off, no position at which a node is to be processed is missing. -/
theorem Engine.Reachable.exactly_once {e : Engine} (h : e.Reachable) (now : Int) {run : String}
    (flow : Flow) (event : Event) (hnew : e.runs.get? run = none) {history : List (Int × Turn)}
    (ha : (e.take now (.start run flow event)).Admits history) :
    ∃ positions r,
      positions.Nodup ∧ Descending positions ∧
      positions.map (flow.stopAt (.object event.context)) =
        (((e.take now (.start run flow event)).metAlong run history).filter
          fun s => (flow.processed? s).isSome).map some ∧
      ((e.take now (.start run flow event)).follow history).runs.get? run = some r ∧
      r.sayings.filter announces = positions.filterMap
        (fun p => (flow.nodeAt (.object event.context) p).map Node.announcement) ∧
      (r.status = .completed → (e.take now (.start run flow event)).Keeps run history →
        ∀ p, (flow.nodeAt (.object event.context) p).isSome → p ∈ positions) := by
  obtain ⟨r₀, h₀⟩ := Engine.course_start (h.coherent.unknown hnew) now flow event
  have hadm : (Turn.start run flow event).Admitted e := hnew
  have hstart := h.take now hadm
  obtain ⟨r, hr⟩ := Engine.course_follow hstart.coherent h₀ ha
  obtain ⟨done, opened, hled⟩ := hr.explored
  rw [List.nil_append] at hled
  refine ⟨done.filter fun p => (flow.nodeAt (.object event.context) p).isSome, r,
    (List.nodup_append.1 hled.nodup).1.filter _, hled.descending_filter, hled.map_stopAt_filter,
    hr.record, ?_, fun hs hkeeps p hp => ?_⟩
  · rw [hr.sayings announces fun x hx => announces_aside hx, List.nil_append]
    exact hled.announcements
  · have hnil := ((hstart.follow ha).coherent.known hr.record).pending_eq_nil hr.record hs flow
    rw [hnil] at hled
    obtain ⟨s, hstop, -⟩ := Option.bind_eq_some_iff.1 (Option.isSome_iff_exists.1 hp).choose_spec
    exact List.mem_filter.2
      ⟨hled.mem_of_stopAt ⟨⟨trivial, hkeeps⟩, by simp [hs]⟩ (by simp [hstop]), hp⟩

/-- A greeting that completes: both messages and the delay between have their turn, once each. -/
theorem greeting_exactly_once :
    ∃ positions : List Position, positions.Nodup ∧ positions.length = 3 ∧
      [0] ∈ positions ∧ [1] ∈ positions ∧ [0, 1] ∈ positions := by
  have hnew : (Engine.runs { channel := "mail" }).get? "r" = none := rfl
  have hadm : (Engine.take { channel := "mail" } 0 (.start "r" greeting order)).Admits
      [(1, .begin "r"), (2, .reply 0 (.accepted "m")), (3, .fire 0),
        (4, .reply 1 (.accepted "n"))] := ⟨trivial, trivial, trivial, trivial, trivial⟩
  obtain ⟨positions, r, hnodup, -, hstops, hr, -, hall⟩ :=
    Engine.Reachable.exactly_once (.idle "mail") 0 greeting order hnew hadm
  have hs : r.status = .completed := by
    have hstatus : (some r).map Run.status = some .completed := by
      rw [← hr]
      decide +kernel
    exact Option.some.inj hstatus
  have hlength : positions.length = 3 := by
    rw [← List.length_map (greeting.stopAt (.object order.context)), hstops]
    decide +kernel
  have hkeeps := hall hs ⟨trivial, trivial, trivial, trivial, trivial⟩
  exact ⟨positions, hnodup, hlength, hkeeps [0] (by decide +kernel), hkeeps [1] (by decide +kernel),
    hkeeps [0, 1] (by decide +kernel)⟩

end Campaign
