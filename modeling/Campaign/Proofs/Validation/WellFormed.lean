import Campaign.Validation.Examine
import Campaign.Proofs.Validation.Search
import Mathlib.Data.List.Nodup
import Mathlib.Data.List.Perm.Subperm
/-!
# Well-formed flows

`Flow.WellFormed` says what a flow must be like, without a word about how that is found out.  An
examination that finds no error leaves no doubt that a flow is like that (`wellFormed_of_valid`),
and it finds none in a flow that is (`valid_iff_wellFormed`): the checks that ask for more ask for
what follows from the others.
-/
namespace Campaign

open Relation

namespace Flow

/-- Whether a trigger leads to a node. -/
def Reached (f : Flow) (id : String) : Prop :=
  ∃ trigger ∈ f.triggers, ReflTransGen (Graph.Leads f.edges) trigger.id id

/-- The name that a well-formed flow gives to the branch for a result. -/
def branchName (result : Bool) : String := if result then "true" else "false"

/-- What a flow must be like to be carried out. -/
structure WellFormed (f : Flow) : Prop where
  triggers : f.triggers ≠ []
  actions : f.actions ≠ []
  nodeIds : (f.nodes.map (·.id)).Nodup
  edgeIds : (f.edges.map (·.id)).Nodup
  labels : ∀ n ∈ f.nodes, Text.blankText n.label = false
  names : ∀ e ∈ f.edges, Text.blankText e.id = false
  sources : ∀ e ∈ f.edges, e.source ∈ f.nodes.map (·.id)
  targets : ∀ e ∈ f.edges, e.target ∈ f.nodes.map (·.id)
  loopless : ∀ e ∈ f.edges, e.source ≠ e.target
  acyclic : ∀ id, f.Reached id → ¬ TransGen (Graph.Leads f.edges) id id
  configs : ∀ n ∈ f.nodes, ∃ config, n.parseConfig = .ok config
  reached : ∀ n ∈ f.nodes, n.kind ≠ .trigger → f.Reached n.id
  onward : ∀ n ∈ f.nodes, n.kind = .trigger ∨ n.kind = .condition →
    ∃ e ∈ f.edges, e.source = n.id
  branches : ∀ n ∈ f.nodes, n.kind = .condition → ∀ result,
    ∃ e ∈ f.edges, e.source = n.id ∧ e.branch = some (branchName result)

end Flow

/-- Branches may end everywhere but at triggers and conditions. -/
theorem NodeKind.isSink_eq_false_iff {kind : NodeKind} :
    kind.isSink = false ↔ kind = .trigger ∨ kind = .condition := by
  cases kind <;> decide

/-! ## Configurations -/

/-- The kind of the nodes that a configuration is for. -/
def NodeConfig.kind : NodeConfig → NodeKind
  | trigger _ => .trigger
  | action _ => .action
  | condition _ => .condition
  | delay _ => .delay
  | finish _ => .finish

theorem Schema.Checked.exists_of_map {α β : Type} {g : α → β} {x : Schema.Checked α} {b : β}
    (h : g <$> x = .valid b) : ∃ a, b = g a := by
  cases x with
  | valid a =>
    cases h
    exact ⟨a, rfl⟩
  | invalid issues => cases h

theorem NodeConfig.kind_of_read {kind : NodeKind} {v : Value} {config : NodeConfig}
    (h : NodeConfig.read kind v = .valid config) : config.kind = kind := by
  cases kind <;> simp only [NodeConfig.read, Schema.record] at h
  case trigger =>
    obtain ⟨a, rfl⟩ := Schema.Checked.exists_of_map h
    rfl
  case action =>
    obtain ⟨a, rfl⟩ := Schema.Checked.exists_of_map h
    rfl
  case condition =>
    split at h
    · obtain ⟨a, rfl⟩ := Schema.Checked.exists_of_map h
      rfl
    · cases h
  case delay =>
    split at h
    · obtain ⟨a, rfl⟩ := Schema.Checked.exists_of_map h
      rfl
    · cases h
  case finish =>
    obtain ⟨a, rfl⟩ := Schema.Checked.exists_of_map h
    rfl

/-- A configuration that is accepted is one for the kind of its node. -/
theorem Node.kind_of_parseConfig {n : Node} {config : NodeConfig}
    (h : n.parseConfig = .ok config) : config.kind = n.kind := by
  unfold parseConfig at h
  split at h
  · split at h
    · rename_i hread
      cases h
      exact NodeConfig.kind_of_read hread
    · cases h
    · cases h
  · cases h

/-! ## The checks, one by one -/

namespace Finding

/-- Whether none of some findings is an error. -/
def Harmless (findings : List Finding) : Prop := ∀ x ∈ findings, x.severity ≠ .error

@[simp] theorem harmless_nil : Harmless [] := List.forall_mem_nil _

@[simp] theorem harmless_cons (x : Finding) (l : List Finding) :
    Harmless (x :: l) ↔ x.severity ≠ .error ∧ Harmless l := List.forall_mem_cons

@[simp] theorem harmless_append (l l' : List Finding) :
    Harmless (l ++ l') ↔ Harmless l ∧ Harmless l' := List.forall_mem_append

@[simp] theorem harmless_flatMap {α : Type} (l : List α) (g : α → List Finding) :
    Harmless (l.flatMap g) ↔ ∀ a ∈ l, Harmless (g a) := by
  simp only [Harmless, List.mem_flatMap]
  constructor
  · intro h a ha x hx
    exact h x ⟨a, ha, hx⟩
  · rintro h x ⟨a, ha, hx⟩
    exact h a ha x hx

@[simp] theorem harmless_reportIf (condition : Bool) (x : Finding) :
    Harmless (reportIf condition x) ↔ (condition = true → x.severity ≠ .error) := by
  cases condition <;> simp [reportIf]

end Finding

namespace Flow

open Finding

variable {f : Flow}

theorem harmless_of_valid (h : f.examine.valid = true) : Harmless f.findings := by
  intro x hx
  have := List.all_eq_true.1 h x hx
  simpa using this

theorem valid_of_harmless (h : Harmless f.findings) : f.examine.valid = true := by
  refine List.all_eq_true.2 fun x hx => ?_
  simpa using h x hx

theorem harmless_labelFindings : Harmless f.labelFindings ↔
    ∀ n ∈ f.nodes, Text.blankText n.label = false := by
  simp [labelFindings]

theorem harmless_edgeIdFindings : Harmless f.edgeIdFindings ↔
    ∀ e ∈ f.edges, Text.blankText e.id = false := by
  simp [edgeIdFindings]

theorem harmless_triggerFindings : Harmless f.triggerFindings ↔ f.triggers ≠ [] := by
  simp [triggerFindings]

theorem harmless_referenceFindings : Harmless f.referenceFindings ↔
    ∀ e ∈ f.edges, e.source ∈ f.nodes.map (·.id) ∧ e.target ∈ f.nodes.map (·.id) := by
  simp [referenceFindings]

theorem harmless_loopFindings : Harmless f.loopFindings ↔
    ∀ e ∈ f.edges, e.source ≠ e.target := by
  simp [loopFindings]

theorem harmless_duplicateFindings : Harmless f.duplicateFindings ↔
    Graph.duplicates (f.nodes.map (·.id)) = [] ∧ Graph.duplicates (f.edges.map (·.id)) = [] := by
  simp [duplicateFindings]

theorem harmless_configFindings : Harmless f.configFindings ↔
    ∀ n ∈ f.nodes, ∃ config, n.parseConfig = .ok config := by
  simp only [configFindings, harmless_flatMap]
  refine forall₂_congr fun n _ => ?_
  unfold Node.configFault?
  cases n.parseConfig <;> simp

theorem harmless_reachFindings : Harmless f.reachFindings ↔
    ∀ n ∈ f.nodes, n.kind ≠ .trigger → n.id ∈ f.reachable := by
  simp [reachFindings]

theorem harmless_cycleFindings : Harmless f.cycleFindings ↔
    Graph.closingEdges f.edges f.triggerIds f.reachable = [] := by
  simp [cycleFindings, Harmless, List.eq_nil_iff_forall_not_mem]

theorem harmless_endFindings : Harmless f.endFindings ↔ ∀ n ∈ f.nodes,
    (n.kind ≠ .trigger → f.hasIncoming n.id = true) ∧
      (n.kind.isSink = false → f.hasOutgoing n.id = true) := by
  simp [endFindings]

theorem harmless_branchFindings : Harmless f.branchFindings ↔
    ∀ n ∈ f.nodes, n.kind = .condition → ¬ (f.outgoing n.id).length < 2 ∧
      f.hasBranch n.id "true" = true ∧ f.hasBranch n.id "false" = true := by
  simp [branchFindings]

theorem harmless_actionFindings : Harmless f.actionFindings ↔
    (f.actions ≠ [] → f.actions.any (·.id ∈ f.reachable) = true) ∧
      (f.triggers ≠ [] → f.actions ≠ []) := by
  simp [actionFindings]

/-! ## What the checks of the graph find out -/

theorem reached_of_mem_reachable {id : String} (h : id ∈ f.reachable) : f.Reached id := by
  obtain ⟨start, hs, hlead⟩ := Graph.leads_of_mem_reachable h
  obtain ⟨trigger, ht, rfl⟩ := List.mem_map.1 hs
  exact ⟨trigger, ht, hlead⟩

theorem mem_reachable_of_reached {id : String} (h : f.Reached id) : id ∈ f.reachable := by
  obtain ⟨trigger, ht, hlead⟩ := h
  exact Graph.mem_reachable_of_leads (List.mem_map_of_mem ht) hlead

theorem Reached.trans {a b : String} (h : f.Reached a)
    (hab : ReflTransGen (Graph.Leads f.edges) a b) : f.Reached b := by
  obtain ⟨trigger, ht, hlead⟩ := h
  exact ⟨trigger, ht, hlead.trans hab⟩

/-- The search for cycles follows every edge within reach when no edge is a loop. -/
theorem leads_proper (hloop : ∀ e ∈ f.edges, e.source ≠ e.target) {a b : String}
    (ha : f.Reached a) (h : Graph.Leads f.edges a b) :
    Graph.Leads (Graph.proper f.edges f.reachable) a b := by
  obtain ⟨e, he, rfl, rfl⟩ := h
  have hproper : e.source ≠ e.target ∧ e.source ∈ f.reachable :=
    ⟨hloop e he, mem_reachable_of_reached ha⟩
  exact ⟨e, List.mem_filter.2 ⟨he, by simpa using hproper⟩, rfl, rfl⟩

theorem leads_proper_trans (hloop : ∀ e ∈ f.edges, e.source ≠ e.target) {a b : String}
    (ha : f.Reached a) (h : ReflTransGen (Graph.Leads f.edges) a b) :
    ReflTransGen (Graph.Leads (Graph.proper f.edges f.reachable)) a b := by
  induction h with
  | refl => exact .refl
  | tail hab hlead ih => exact ih.tail (leads_proper hloop (ha.trans hab) hlead)

theorem acyclic_of_checked (hloop : ∀ e ∈ f.edges, e.source ≠ e.target)
    (hc : Graph.closingEdges f.edges f.triggerIds f.reachable = []) {id : String}
    (h : f.Reached id) : ¬ TransGen (Graph.Leads f.edges) id id := by
  intro hcycle
  obtain ⟨trigger, ht, hlead⟩ := h
  have htrigger : f.Reached trigger.id := ⟨trigger, ht, .refl⟩
  have hid := htrigger.trans hlead
  obtain ⟨x, hback, hlast⟩ := TransGen.tail'_iff.1 hcycle
  exact Graph.acyclic_of_closingEdges hc (List.mem_map_of_mem ht)
    (leads_proper_trans hloop htrigger hlead)
    (.tail' (leads_proper_trans hloop hid hback) (leads_proper hloop (hid.trans hback) hlast))

/-- **A flow in which an examination finds no error is well-formed.** -/
theorem wellFormed_of_valid (h : f.examine.valid = true) : f.WellFormed := by
  have hall := harmless_of_valid h
  simp only [findings, harmless_append, and_assoc] at hall
  obtain ⟨hlabel, hname, htrigger, href, hloop, hdup, hconfig, -, -, hreach, hcycle, hend, hbranch,
    haction⟩ := hall
  rw [harmless_triggerFindings] at htrigger
  rw [harmless_referenceFindings] at href
  rw [harmless_loopFindings] at hloop
  rw [harmless_duplicateFindings] at hdup
  rw [harmless_cycleFindings] at hcycle
  refine ⟨htrigger, (harmless_actionFindings.1 haction).2 htrigger,
    Graph.nodup_of_duplicates hdup.1, Graph.nodup_of_duplicates hdup.2,
    harmless_labelFindings.1 hlabel, harmless_edgeIdFindings.1 hname,
    fun e he => (href e he).1, fun e he => (href e he).2, hloop,
    fun id hid => acyclic_of_checked hloop hcycle hid, harmless_configFindings.1 hconfig,
    fun n hn hk => reached_of_mem_reachable (harmless_reachFindings.1 hreach n hn hk), ?_, ?_⟩
  · intro n hn hk
    have hout := ((harmless_endFindings.1 hend) n hn).2 (NodeKind.isSink_eq_false_iff.2 hk)
    simpa [hasOutgoing] using hout
  · intro n hn hk result
    obtain ⟨-, htrue, hfalse⟩ := harmless_branchFindings.1 hbranch n hn hk
    cases result with
    | true => simpa [hasBranch, outgoing, branchName, and_assoc] using htrue
    | false => simpa [hasBranch, outgoing, branchName, and_assoc] using hfalse

/-! ## What a well-formed flow is spared -/

theorem reflTransGen_of_proper {edges : List Edge} {within : List String} {a b : String}
    (h : ReflTransGen (Graph.Leads (Graph.proper edges within)) a b) :
    ReflTransGen (Graph.Leads edges) a b := by
  refine ReflTransGen.mono (fun x y hlead => ?_) a b h
  obtain ⟨e, he, hsource, htarget⟩ := hlead
  exact ⟨e, (List.mem_filter.1 he).1, hsource, htarget⟩

namespace WellFormed

variable {n : Node}

/-- The search for cycles finds nothing. -/
theorem closingEdges_eq_nil (hw : f.WellFormed) :
    Graph.closingEdges f.edges f.triggerIds f.reachable = [] := by
  refine List.eq_nil_iff_forall_not_mem.2 fun x hx => ?_
  obtain ⟨e, ⟨he, hback⟩, -⟩ := Graph.closes_of_mem_closingEdges hx
  obtain ⟨he, hproper⟩ := List.mem_filter.1 he
  have hsource : f.Reached e.source := by
    refine reached_of_mem_reachable ?_
    simpa using (of_decide_eq_true hproper).2
  exact hw.acyclic e.source hsource (.head' ⟨e, he, rfl, rfl⟩ (reflTransGen_of_proper hback))

/-- An edge leads to every node but the triggers: a path from a trigger ends with it, since ids are
distinct. -/
theorem hasIncoming (hw : f.WellFormed) (hn : n ∈ f.nodes) (hk : n.kind ≠ .trigger) :
    f.hasIncoming n.id = true := by
  obtain ⟨trigger, ht, hlead⟩ := hw.reached n hn hk
  rcases hlead.cases_tail with heq | ⟨x, -, e, he, -, htarget⟩
  · obtain ⟨ht, hkind⟩ := List.mem_filter.1 ht
    obtain rfl : n = trigger := List.inj_on_of_nodup_map hw.nodeIds hn ht heq
    exact absurd (of_decide_eq_true hkind) hk
  · exact List.any_eq_true.2 ⟨e, he, by simpa using htarget⟩

theorem hasOutgoing (hw : f.WellFormed) (hn : n ∈ f.nodes) (hk : n.kind.isSink = false) :
    f.hasOutgoing n.id = true := by
  obtain ⟨e, he, hsource⟩ := hw.onward n hn (NodeKind.isSink_eq_false_iff.1 hk)
  exact List.any_eq_true.2 ⟨e, he, by simpa using hsource⟩

theorem hasBranch (hw : f.WellFormed) (hn : n ∈ f.nodes) (hk : n.kind = .condition)
    (result : Bool) : f.hasBranch n.id (branchName result) = true := by
  obtain ⟨e, he, hsource, hbranch⟩ := hw.branches n hn hk result
  refine List.any_eq_true.2 ⟨e, ?_, by simpa using hbranch⟩
  exact List.mem_filter.2 ⟨he, by simpa using hsource⟩

/-- The edges of the two branches of a condition are two. -/
theorem two_le_length_outgoing (hw : f.WellFormed) (hn : n ∈ f.nodes) (hk : n.kind = .condition) :
    2 ≤ (f.outgoing n.id).length := by
  obtain ⟨yes, hyes, hyesSource, hyesBranch⟩ := hw.branches n hn hk true
  obtain ⟨no, hno, hnoSource, hnoBranch⟩ := hw.branches n hn hk false
  have hne : yes ≠ no := by
    rintro rfl
    have hname := Option.some.inj (hyesBranch.symm.trans hnoBranch)
    simp [branchName] at hname
  have hsub : [yes, no] ⊆ f.outgoing n.id := by
    refine List.cons_subset.2 ⟨?_, List.cons_subset.2 ⟨?_, List.nil_subset _⟩⟩
    · exact List.mem_filter.2 ⟨hyes, by simpa using hyesSource⟩
    · exact List.mem_filter.2 ⟨hno, by simpa using hnoSource⟩
  have hnodup : [yes, no].Nodup := by simpa using hne
  exact (hnodup.subperm hsub).length_le

/-- An action is reached, since all nodes are but the triggers. -/
theorem any_reachable (hw : f.WellFormed) : f.actions.any (·.id ∈ f.reachable) = true := by
  obtain ⟨action, ha⟩ := List.exists_mem_of_ne_nil _ hw.actions
  obtain ⟨hn, hkind⟩ := List.mem_filter.1 ha
  have hk : action.kind ≠ .trigger := by simp [of_decide_eq_true hkind]
  refine List.any_eq_true.2 ⟨action, ha, ?_⟩
  simpa using mem_reachable_of_reached (hw.reached action hn hk)

end WellFormed

/-- **A well-formed flow passes the examination.** -/
theorem valid_of_wellFormed (hw : f.WellFormed) : f.examine.valid = true := by
  have hsize : Harmless f.sizeFindings := by
    have hnodes : f.nodes ≠ [] := fun hnil => hw.triggers (by simp [triggers, hnil])
    simp [sizeFindings, hnodes]
  have hconnection : Harmless f.connectionFindings := by
    simp only [connectionFindings, harmless_flatMap, harmless_reportIf]
    intro n hn hbad
    simp only [Bool.and_eq_true, decide_eq_true_eq, Bool.not_eq_true'] at hbad
    simp [hw.hasIncoming hn hbad.1.1] at hbad
  refine valid_of_harmless ?_
  simp only [findings, harmless_append, and_assoc]
  refine ⟨?_, ?_, ?_, ?_, ?_, ?_, ?_, hsize, hconnection, ?_, ?_, ?_, ?_, ?_⟩
  · exact harmless_labelFindings.2 hw.labels
  · exact harmless_edgeIdFindings.2 hw.names
  · exact harmless_triggerFindings.2 hw.triggers
  · exact harmless_referenceFindings.2 fun e he => ⟨hw.sources e he, hw.targets e he⟩
  · exact harmless_loopFindings.2 hw.loopless
  · exact harmless_duplicateFindings.2
      ⟨Graph.duplicates_eq_nil_iff.2 hw.nodeIds, Graph.duplicates_eq_nil_iff.2 hw.edgeIds⟩
  · exact harmless_configFindings.2 hw.configs
  · exact harmless_reachFindings.2 fun n hn hk => mem_reachable_of_reached (hw.reached n hn hk)
  · exact harmless_cycleFindings.2 hw.closingEdges_eq_nil
  · exact harmless_endFindings.2 fun n hn => ⟨hw.hasIncoming hn, hw.hasOutgoing hn⟩
  · refine harmless_branchFindings.2 fun n hn hk => ⟨?_, ?_, ?_⟩
    · exact Nat.not_lt.2 (hw.two_le_length_outgoing hn hk)
    · exact hw.hasBranch hn hk true
    · exact hw.hasBranch hn hk false
  · exact harmless_actionFindings.2 ⟨fun _ => hw.any_reachable, fun _ => hw.actions⟩

/-- **An examination decides whether a flow is well-formed.** -/
theorem valid_iff_wellFormed (f : Flow) : f.examine.valid = true ↔ f.WellFormed :=
  ⟨wellFormed_of_valid, valid_of_wellFormed⟩

end Flow

end Campaign
