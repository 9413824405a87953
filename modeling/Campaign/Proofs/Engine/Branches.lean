import Campaign.Proofs.Engine.ExactlyOnce
import Campaign.Proofs.Engine.Lookups
import Campaign.Proofs.Validation.WellFormed
/-!
# The branches of a well-formed flow

In the tree of a run of a well-formed flow every stop is processed: its node is there, and is not on
its path, since the nodes on the path lead to it and there are no cycles (`WellFormed.processed`).
A node leads on unless it may end a branch or fails (`WellFormed.ends`), and what is written into
the log at a stop does not blame the flow (`WellFormed.blameless`).
-/
namespace Campaign

open Relation

/-- Whether an entry in a log blames the flow: a node is missing or comes up again on its branch, or
a configuration is invalid. -/
def blamesFlow (x : LogLevel × String) : Bool :=
  Begins "Node " x || Begins "ACTION node has invalid config" x ||
    Begins "CONDITION node has invalid config" x || Begins "DELAY node has invalid config" x

theorem blamesFlow_aside {x : LogLevel × String} (h : Aside x) : blamesFlow x = false := by
  cases h <;> simp [blamesFlow, Begins, String.toList_append, List.isPrefixOf]

namespace Flow

variable {f : Flow} {context : Value} {s : Stop} {n : Node} {id : String} {path : List String}

/-- A stop to which edges lead from a trigger, and from every node on its path. -/
structure Routed (f : Flow) (s : Stop) : Prop where
  entered : ∃ e ∈ f.edges, e.target = s.node
  reached : f.Reached s.node
  path : ∀ id ∈ s.path, TransGen (Graph.Leads f.edges) id s.node

theorem mem_targets {target : String} {way : Onward} (h : target ∈ f.targets id way) :
    ∃ e ∈ f.edges, e.source = id ∧ e.target = target := by
  cases way with
  | everywhere => simpa [targets, successors, outgoing, and_assoc] using h
  | branch result =>
    simp only [targets, branch, outgoing, List.mem_map, List.mem_filter, decide_eq_true_eq] at h
    obtain ⟨e, ⟨⟨he, hsource⟩, -⟩, ht⟩ := h
    exact ⟨e, he, hsource, ht⟩
  | nowhere => cases h

/-- The stops behind a node are routed when it is. -/
theorem routed_behind (hid : f.Reached id)
    (hpath : ∀ x ∈ path, ReflTransGen (Graph.Leads f.edges) x id) {way : Onward}
    (hs : s ∈ f.behind id path way) : f.Routed s := by
  obtain ⟨target, ht, rfl⟩ := List.mem_map.1 hs
  obtain ⟨e, he, rfl, rfl⟩ := mem_targets ht
  have hlead : Graph.Leads f.edges e.source e.target := ⟨e, he, rfl, rfl⟩
  exact ⟨⟨e, he, rfl⟩, hid.trans (.single hlead), fun x hx => .tail' (hpath x hx) hlead⟩

theorem mem_of_processed (hs : f.processed? s = some n) :
    n ∈ f.nodes ∧ n.id = s.node ∧ n.id ∉ s.path := by
  simp only [processed?, Option.filter_eq_some_iff, decide_eq_true_eq] at hs
  obtain ⟨hn, hid⟩ := node?_mem hs.1
  exact ⟨hn, hid, hs.2⟩

theorem routed_of_mem_children (h : f.Routed s) {s' : Stop} (hs : s' ∈ f.children context s) :
    f.Routed s' := by
  unfold children at hs
  split at hs
  · rename_i n hn
    obtain ⟨-, hid, -⟩ := mem_of_processed hn
    rw [hid] at hs
    refine routed_behind h.reached (fun x hx => ?_) hs
    rcases List.mem_append.1 hx with hx | hx
    · exact (h.path x hx).to_reflTransGen
    · rw [List.mem_singleton.1 hx]
  · cases hs

/-- **Every stop of the tree is routed.** -/
theorem routed_of_mem_below {p : Position} (hs : s ∈ f.below context p) : f.Routed s := by
  induction p generalizing s with
  | nil =>
    simp only [below, roots] at hs
    split at hs
    · cases hs
    · rename_i trigger more htriggers
      have hmem : trigger ∈ f.triggers := htriggers ▸ List.mem_cons_self
      refine routed_behind ⟨trigger, hmem, .refl⟩ (fun x hx => ?_) hs
      rw [List.mem_singleton.1 hx]
  | cons i p ih =>
    simp only [below] at hs
    split at hs
    · rename_i s' hs'
      exact routed_of_mem_children (ih (List.mem_of_getElem? hs')) hs
    · cases hs

theorem routed_of_stopAt {p : Position} (hs : f.stopAt context p = some s) : f.Routed s := by
  cases p with
  | nil => cases hs
  | cons i p => exact routed_of_mem_below (List.mem_of_getElem? hs)

namespace WellFormed

/-- **Every stop of a well-formed flow is processed.** -/
theorem processed (hw : f.WellFormed) (h : f.Routed s) : ∃ n, f.processed? s = some n := by
  obtain ⟨e, he, ht⟩ := h.entered
  obtain ⟨n', hn', hid'⟩ := List.mem_map.1 (hw.targets e he)
  have hsome : (f.node? s.node).isSome := by
    refine List.find?_isSome.2 ⟨n', hn', ?_⟩
    simp [hid', ht]
  obtain ⟨n, hn⟩ := Option.isSome_iff_exists.1 hsome
  refine ⟨n, processed?_of_not_mem hn fun hp => ?_⟩
  have hid := (node?_mem hn).2
  exact hw.acyclic n.id (hid ▸ h.reached) (hid ▸ h.path n.id hp)

/-- A condition has somewhere to go for either result. -/
theorem branch_ne_nil (hw : f.WellFormed) (hn : n ∈ f.nodes) (hk : n.kind = .condition)
    (result : Bool) : f.branch n.id result ≠ [] := by
  obtain ⟨e, he, hsource, hbranch⟩ := hw.branches n hn hk result
  have htaken : e.taken result = true := by
    cases result <;> simp [Edge.taken, hbranch, branchName, Edge.branchNames]
  have hmem : e.target ∈ f.branch n.id result :=
    List.mem_map_of_mem (List.mem_filter.2
      ⟨List.mem_filter.2 ⟨he, by simpa using hsource⟩, htaken⟩)
  exact List.ne_nil_of_mem hmem

theorem successors_ne_nil (hw : f.WellFormed) (hn : n ∈ f.nodes)
    (hk : n.kind = .trigger ∨ n.kind = .condition) : f.successors n.id ≠ [] := by
  obtain ⟨e, he, hsource⟩ := hw.onward n hn hk
  have hmem : e.target ∈ f.successors n.id :=
    List.mem_map_of_mem (List.mem_filter.2 ⟨he, by simpa using hsource⟩)
  exact List.ne_nil_of_mem hmem

/-- A run of a well-formed flow has somewhere to go. -/
theorem roots_ne_nil (hw : f.WellFormed) : f.roots ≠ [] := by
  unfold roots
  split
  · rename_i hnone
    exact absurd hnone hw.triggers
  · rename_i trigger more htriggers
    have hmem : trigger ∈ f.triggers := htriggers ▸ List.mem_cons_self
    obtain ⟨hn, hk⟩ := List.mem_filter.1 hmem
    simpa [behind, Flow.targets] using hw.successors_ne_nil hn (.inl (of_decide_eq_true hk))

theorem exists_condition (hw : f.WellFormed) (hn : n ∈ f.nodes) (hk : n.kind = .condition) :
    ∃ c, n.parseConfig = .ok (.condition c) := by
  obtain ⟨config, hconfig⟩ := hw.configs n hn
  have hkind := Node.kind_of_parseConfig hconfig
  rw [hk] at hkind
  cases config <;> simp only [NodeConfig.kind, reduceCtorEq] at hkind
  exact ⟨_, hconfig⟩

/-- **Where nothing is behind a node, it may end a branch, or it fails.** -/
theorem ends (hw : f.WellFormed) (hs : f.processed? s = some n)
    (hend : f.children context s = []) :
    n.kind.isSink = true ∨ ∃ failure, f.FailsAt context s failure := by
  obtain ⟨hn, -, -⟩ := mem_of_processed hs
  have htargets : f.targets n.id (n.way context) = [] := by
    simpa [children, hs, behind] using hend
  cases hk : n.kind with
  | action => exact .inl rfl
  | delay => exact .inl rfl
  | finish => exact .inl rfl
  | trigger =>
    simp only [Node.way, hk] at htargets
    exact absurd htargets (hw.successors_ne_nil hn (.inl hk))
  | condition =>
    obtain ⟨c, hc⟩ := hw.exists_condition hn hk
    cases heval : c.eval context with
    | ok result =>
      simp only [Node.way, hk, hc, heval] at htargets
      exact absurd htargets (hw.branch_ne_nil hn hk result)
    | error fault =>
      refine .inr ⟨.value fault.message, n, hs, ?_⟩
      simp only [Node.outcome, hk, hc, heval]

/-- What is written when a node is processed is no blame, and no more than information. -/
theorem remarks_node (hw : f.WellFormed) (hn : n ∈ f.nodes) {x : LogLevel × String}
    (hx : x ∈ n.announcement :: n.remarks context) : x.1 = .info ∧ blamesFlow x = false := by
  obtain ⟨config, hconfig⟩ := hw.configs n hn
  rcases List.mem_cons.1 hx with rfl | hx
  · simp [Node.announcement, blamesFlow, Begins, String.toList_append, List.isPrefixOf]
  · cases Node.remark_of_mem hx with
    | action fault hfault => simp [hconfig] at hfault
    | condition fault hfault => simp [hconfig] at hfault
    | delay fault hfault => simp [hconfig] at hfault
    | _ => simp [blamesFlow, Begins, String.toList_append, List.isPrefixOf]

/-- **What is written into the log at a stop does not blame the flow.** -/
theorem blameless (hw : f.WellFormed) (hs : f.processed? s = some n) {x : LogLevel × String}
    (hx : x ∈ f.remarks context s) : blamesFlow x = false := by
  rw [remarks_of_processed hs, ← List.cons_append, List.mem_append] at hx
  rcases hx with hx | hx
  · exact (hw.remarks_node (mem_of_processed hs).1 hx).2
  · unfold Node.complaint at hx
    split at hx
    · rw [List.mem_singleton.1 hx]
      simp [blamesFlow, Begins, String.toList_append, List.isPrefixOf]
    · cases hx

/-- Unless the node fails, what is written into the log at a stop is no more than information. -/
theorem info_of_not_failsAt (hw : f.WellFormed) (hs : f.processed? s = some n)
    (hok : ∀ failure, ¬ f.FailsAt context s failure) {x : LogLevel × String}
    (hx : x ∈ f.remarks context s) : x.1 = .info := by
  rw [remarks_of_processed hs, ← List.cons_append, List.mem_append] at hx
  rcases hx with hx | hx
  · exact (hw.remarks_node (mem_of_processed hs).1 hx).1
  · unfold Node.complaint at hx
    split at hx
    · rename_i failure hfail
      exact absurd ⟨n, hs, hfail⟩ (hok failure)
    · cases hx

end WellFormed

end Flow

end Campaign
