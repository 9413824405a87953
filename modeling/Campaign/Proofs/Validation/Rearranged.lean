import Campaign.Proofs.Validation.Cycles
import Campaign.Proofs.Validation.WellFormed
/-!
# The order of a flow's nodes and edges

A flow is the same graph in whatever order its nodes and edges are listed (`Flow.Rearranged`).  An
examination finds the same to be the matter with it in any order (`Rearranged.examine_same`):

* the checks that name one node or edge at a time give the same findings in another order, since
  what they ask of the graph is there in any order or in none: that an edge leads to a node, or
  that a trigger does (`Rearranged.plainFindings_perm`);
* the ids that occur again are those that occur twice (`Graph.mem_duplicates_iff`), though they are
  named in the order in which they do;
* which edges are said to close cycles depends on where the search begins, but there is one just
  when there is a cycle within reach (`Rearranged.cycleFindings_eq_nil_iff`).
-/
namespace Campaign

open Relation

namespace Finding

/-- What is the matter, how grave it is and where: all of a finding but its message. -/
def matter (x : Finding) : FindingCode × Option String × Option String × Severity :=
  (x.code, x.nodeId, x.edgeId, x.severity)

/-- Whether the message of a finding consists of a lead and some names. -/
def Names (x : Finding) (lead : String) (named : List String) : Prop :=
  x.message = lead ++ ", ".intercalate named

/-- Whether two findings name the ids that occur twice, each id once. -/
def NameAlike (x y : Finding) (lead : String) (ids : List String) : Prop :=
  ∃ named named', x.Names lead named ∧ y.Names lead named' ∧ named.Perm named' ∧ named.Nodup ∧
    ∀ id, id ∈ named ↔ 2 ≤ ids.count id

@[simp] theorem mem_reportIf {condition : Bool} {x y : Finding} :
    y ∈ reportIf condition x ↔ condition = true ∧ y = x := by
  cases condition <;> simp [reportIf]

theorem forall_mem_reportIf {P : Finding → Prop} {condition : Bool} {y : Finding} :
    (∀ x ∈ reportIf condition y, P x) ↔ (condition = true → P y) := by
  cases condition <;> simp [reportIf]

end Finding

/-- The ids that occur again are the same in any order of a list. -/
theorem Graph.duplicates_perm {ids ids' : List String} (h : ids.Perm ids') :
    (duplicates ids).Perm (duplicates ids') := by
  refine (List.perm_ext_iff_of_nodup (nodup_duplicates _) (nodup_duplicates _)).2 fun id => ?_
  rw [mem_duplicates_iff, mem_duplicates_iff, h.count_eq]

namespace Flow

open Finding

/-- Whether two flows have the same nodes and the same edges, each maybe in another order. -/
structure Rearranged (f g : Flow) : Prop where
  nodes : f.nodes.Perm g.nodes
  edges : f.edges.Perm g.edges

/-- What is found by the checks other than those for ids that occur again and for cycles. -/
def plainFindings (f : Flow) : List Finding :=
  f.labelFindings ++ f.edgeIdFindings ++ f.triggerFindings ++ f.referenceFindings ++
    f.loopFindings ++ f.configFindings ++ f.sizeFindings ++ f.connectionFindings ++
    f.reachFindings ++ f.endFindings ++ f.branchFindings ++ f.actionFindings

theorem findings_perm (f : Flow) :
    f.findings.Perm (f.cycleFindings ++ (f.duplicateFindings ++ f.plainFindings)) := by
  refine List.perm_iff_count.2 fun x => ?_
  simp only [findings, plainFindings, List.count_append]
  omega

variable {f g : Flow} {x y : Finding}

/-! ## The codes of the findings -/

theorem code_cycleFindings (h : x ∈ f.cycleFindings) : x.code = .cycleDetected := by
  obtain ⟨id, -, rfl⟩ := List.mem_map.1 h
  rfl

theorem mem_duplicateFindings (h : x ∈ f.duplicateFindings) :
    (x.code = .duplicateNodeIds ∧
      x.Names "Duplicate node IDs found: " (Graph.duplicates (f.nodes.map (·.id)))) ∨
    (x.code = .duplicateEdgeIds ∧
      x.Names "Duplicate edge IDs found: " (Graph.duplicates (f.edges.map (·.id)))) := by
  rcases List.mem_append.1 h with h | h
  · obtain ⟨-, rfl⟩ := mem_reportIf.1 h
    exact .inl ⟨rfl, rfl⟩
  · obtain ⟨-, rfl⟩ := mem_reportIf.1 h
    exact .inr ⟨rfl, rfl⟩

theorem code_configFindings (h : x ∈ f.configFindings) : x.code = .invalidNodeConfig := by
  obtain ⟨n, -, hx⟩ := List.mem_flatMap.1 h
  cases hfault : n.configFault? with
  | none => simp [hfault] at hx
  | some fault =>
    simp only [hfault, List.mem_singleton] at hx
    rw [hx]

/-- No other check reports what these two do. -/
theorem code_plainFindings : ∀ x ∈ f.plainFindings,
    x.code ≠ .cycleDetected ∧ x.code ≠ .duplicateNodeIds ∧ x.code ≠ .duplicateEdgeIds := by
  have hconfig : ∀ x ∈ f.configFindings,
      x.code ≠ .cycleDetected ∧ x.code ≠ .duplicateNodeIds ∧ x.code ≠ .duplicateEdgeIds :=
    fun x hx => by simp [code_configFindings hx]
  simp only [plainFindings, labelFindings, edgeIdFindings, triggerFindings, referenceFindings,
    loopFindings, sizeFindings, connectionFindings, reachFindings, endFindings, branchFindings,
    actionFindings, List.forall_mem_append, List.forall_mem_flatMap, forall_mem_reportIf,
    iff_true_intro hconfig]
  simp

/-- A finding is on a cycle, on ids that occur again, or on neither. -/
theorem mem_findings (h : x ∈ f.findings) :
    x ∈ f.cycleFindings ∨ x ∈ f.duplicateFindings ∨ x ∈ f.plainFindings :=
  (List.mem_append.1 (f.findings_perm.subset h)).imp_right List.mem_append.1

theorem exists_cycleDetected_iff :
    (∃ x ∈ f.findings, x.code = .cycleDetected) ↔ f.cycleFindings ≠ [] := by
  constructor
  · rintro ⟨x, hx, hc⟩
    rcases mem_findings hx with hx | hx | hx
    · exact List.ne_nil_of_mem hx
    · rcases mem_duplicateFindings hx with ⟨hcode, -⟩ | ⟨hcode, -⟩ <;> cases hcode.symm.trans hc
    · exact absurd hc (code_plainFindings x hx).1
  · intro h
    obtain ⟨x, hx⟩ := List.exists_mem_of_ne_nil _ h
    exact ⟨x, f.findings_perm.symm.subset (List.mem_append_left _ hx), code_cycleFindings hx⟩

theorem filter_findings_perm (f : Flow) : (f.findings.filter (·.code ≠ .cycleDetected)).Perm
    (f.duplicateFindings ++ f.plainFindings) := by
  refine (f.findings_perm.filter _).trans (List.Perm.of_eq ?_)
  rw [List.filter_append, List.filter_eq_nil_iff.2, List.nil_append, List.filter_eq_self.2]
  · intro x hx
    rcases List.mem_append.1 hx with hx | hx
    · rcases mem_duplicateFindings hx with ⟨hcode, -⟩ | ⟨hcode, -⟩ <;> simp [hcode]
    · simpa using (code_plainFindings x hx).1
  · intro x hx
    simp [code_cycleFindings hx]

theorem names_nodeIds (h : x ∈ f.findings) (hc : x.code = .duplicateNodeIds) :
    x.Names "Duplicate node IDs found: " (Graph.duplicates (f.nodes.map (·.id))) := by
  rcases mem_findings h with hx | hx | hx
  · cases (code_cycleFindings hx).symm.trans hc
  · rcases mem_duplicateFindings hx with ⟨-, hnames⟩ | ⟨hcode, -⟩
    · exact hnames
    · cases hcode.symm.trans hc
  · exact absurd hc (code_plainFindings x hx).2.1

theorem names_edgeIds (h : x ∈ f.findings) (hc : x.code = .duplicateEdgeIds) :
    x.Names "Duplicate edge IDs found: " (Graph.duplicates (f.edges.map (·.id))) := by
  rcases mem_findings h with hx | hx | hx
  · cases (code_cycleFindings hx).symm.trans hc
  · rcases mem_duplicateFindings hx with ⟨hcode, -⟩ | ⟨-, hnames⟩
    · cases hcode.symm.trans hc
    · exact hnames
  · exact absurd hc (code_plainFindings x hx).2.2

/-! ## In another order -/

namespace Rearranged

variable (hr : Rearranged f g)

include hr

theorem triggers : f.triggers.Perm g.triggers := hr.nodes.filter _

theorem actions : f.actions.Perm g.actions := hr.nodes.filter _

theorem outgoing (id : String) : (f.outgoing id).Perm (g.outgoing id) := hr.edges.filter _

theorem hasIncoming (id : String) : f.hasIncoming id = g.hasIncoming id := hr.edges.any_eq

theorem hasOutgoing (id : String) : f.hasOutgoing id = g.hasOutgoing id := hr.edges.any_eq

theorem hasBranch (id name : String) : f.hasBranch id name = g.hasBranch id name :=
  (hr.outgoing id).any_eq

theorem leads : Graph.Leads f.edges = Graph.Leads g.edges := by
  funext a b
  simp only [Graph.Leads, hr.edges.mem_iff]

theorem mem_reachable (id : String) : id ∈ f.reachable ↔ id ∈ g.reachable := by
  have hreached : f.Reached id ↔ g.Reached id := by
    simp only [Reached, hr.triggers.mem_iff, hr.leads]
  exact ⟨fun h => mem_reachable_of_reached (hreached.1 (reached_of_mem_reachable h)),
    fun h => mem_reachable_of_reached (hreached.2 (reached_of_mem_reachable h))⟩

theorem plainFindings_perm : f.plainFindings.Perm g.plainFindings := by
  have hids (id : String) : id ∈ f.nodes.map (·.id) ↔ id ∈ g.nodes.map (·.id) :=
    (hr.nodes.map _).mem_iff
  have href : f.referenceFindings.Perm g.referenceFindings := by
    simp only [referenceFindings, hids]
    exact hr.edges.flatMap_right _
  have hconnection : f.connectionFindings.Perm g.connectionFindings := by
    simp only [connectionFindings, hr.hasIncoming, hr.hasOutgoing]
    exact hr.nodes.flatMap_right _
  have hreach : f.reachFindings.Perm g.reachFindings := by
    simp only [reachFindings, hr.mem_reachable]
    exact hr.nodes.flatMap_right _
  have hend : f.endFindings.Perm g.endFindings := by
    simp only [endFindings, hr.hasIncoming, hr.hasOutgoing]
    exact hr.nodes.flatMap_right _
  have hbranch : f.branchFindings.Perm g.branchFindings := by
    simp only [branchFindings, hr.hasBranch, (hr.outgoing _).length_eq]
    exact (hr.nodes.filter _).flatMap_right _
  have htrigger : f.triggerFindings = g.triggerFindings := by
    simp only [triggerFindings, hr.triggers.isEmpty_eq]
  have hsize : f.sizeFindings = g.sizeFindings := by
    simp only [sizeFindings, hr.nodes.isEmpty_eq, hr.nodes.length_eq, hr.triggers.length_eq]
  have haction : f.actionFindings = g.actionFindings := by
    simp only [actionFindings, hr.actions.isEmpty_eq, hr.triggers.isEmpty_eq, hr.mem_reachable,
      hr.actions.any_eq]
  have hlabel : f.labelFindings.Perm g.labelFindings := hr.nodes.flatMap_right _
  have hconfig : f.configFindings.Perm g.configFindings := hr.nodes.flatMap_right _
  have hname : f.edgeIdFindings.Perm g.edgeIdFindings := hr.edges.flatMap_right _
  have hloop : f.loopFindings.Perm g.loopFindings := hr.edges.flatMap_right _
  refine List.perm_iff_count.2 fun x => ?_
  simp only [plainFindings, List.count_append, hlabel.count_eq, hname.count_eq, htrigger,
    href.count_eq, hloop.count_eq, hconfig.count_eq, hsize, hconnection.count_eq, hreach.count_eq,
    hend.count_eq, hbranch.count_eq, haction]

theorem nodeIds_perm : (Graph.duplicates (f.nodes.map (·.id))).Perm
    (Graph.duplicates (g.nodes.map (·.id))) := Graph.duplicates_perm (hr.nodes.map _)

theorem edgeIds_perm : (Graph.duplicates (f.edges.map (·.id))).Perm
    (Graph.duplicates (g.edges.map (·.id))) := Graph.duplicates_perm (hr.edges.map _)

theorem matter_duplicateFindings :
    f.duplicateFindings.map matter = g.duplicateFindings.map matter := by
  simp only [duplicateFindings, hr.nodeIds_perm.isEmpty_eq, hr.edgeIds_perm.isEmpty_eq, reportIf]
  split <;> split <;> rfl

/-- There is an edge that closes a cycle just when there is a cycle. -/
theorem cycleFindings_eq_nil_iff : f.cycleFindings = [] ↔ g.cycleFindings = [] := by
  have hjoins : Graph.Joins f.edges f.reachable = Graph.Joins g.edges g.reachable := by
    funext a b
    simp only [Graph.Joins, hr.leads, hr.mem_reachable]
  have hf := (Graph.breaks_closingEdges f.edges f.triggerIds).nil_iff
  have hg := (Graph.breaks_closingEdges g.edges g.triggerIds).nil_iff
  rw [cycleFindings, cycleFindings, List.map_eq_nil_iff, List.map_eq_nil_iff]
  exact hf.trans (hjoins ▸ hg.symm)

theorem valid_eq : f.examine.valid = g.examine.valid := by
  have hcycle : Harmless f.cycleFindings ↔ Harmless g.cycleFindings := by
    have hnil := hr.cycleFindings_eq_nil_iff
    rw [cycleFindings, cycleFindings, List.map_eq_nil_iff, List.map_eq_nil_iff] at hnil
    rw [harmless_cycleFindings, harmless_cycleFindings, hnil]
  have hplain : Harmless f.plainFindings ↔ Harmless g.plainFindings := by
    simp only [Harmless, hr.plainFindings_perm.mem_iff]
  have hduplicate : Harmless f.duplicateFindings ↔ Harmless g.duplicateFindings := by
    simp only [harmless_duplicateFindings, ← List.length_eq_zero_iff, hr.nodeIds_perm.length_eq,
      hr.edgeIds_perm.length_eq]
  have hall (f : Flow) : f.examine.valid = true ↔ Harmless f.cycleFindings ∧
      Harmless f.duplicateFindings ∧ Harmless f.plainFindings := by
    rw [← harmless_append, ← harmless_append]
    have hperm := f.findings_perm
    exact ⟨fun h x hx => harmless_of_valid h x (hperm.symm.subset hx),
      fun h => valid_of_harmless fun x hx => h x (hperm.subset hx)⟩
  rw [Bool.eq_iff_iff, hall, hall, hcycle, hduplicate, hplain]

/-- **An examination does not depend on the order of the nodes and edges**: it is as favourable,
says the same to be the matter at the same places but for the edges that close cycles, of which
there are some in either order or in none, and names the same ids as occurring again. -/
theorem examine_same :
    f.examine.valid = g.examine.valid ∧
    ((f.examine.findings.filter (·.code ≠ .cycleDetected)).map matter).Perm
      ((g.examine.findings.filter (·.code ≠ .cycleDetected)).map matter) ∧
    ((∃ x ∈ f.examine.findings, x.code = .cycleDetected) ↔
      ∃ x ∈ g.examine.findings, x.code = .cycleDetected) ∧
    ∀ x ∈ f.examine.findings, ∀ y ∈ g.examine.findings, x.code = y.code →
      (x.code = .duplicateNodeIds →
        NameAlike x y "Duplicate node IDs found: " (f.nodes.map (·.id))) ∧
      (x.code = .duplicateEdgeIds →
        NameAlike x y "Duplicate edge IDs found: " (f.edges.map (·.id))) := by
  refine ⟨hr.valid_eq, ?_, ?_, fun x hx y hy hcode => ⟨fun hc => ?_, fun hc => ?_⟩⟩
  · refine ((filter_findings_perm f).map _).trans
      (.trans ?_ ((filter_findings_perm g).map _).symm)
    rw [List.map_append, List.map_append, hr.matter_duplicateFindings]
    exact (hr.plainFindings_perm.map _).append_left _
  · exact exists_cycleDetected_iff.trans
      ((not_congr hr.cycleFindings_eq_nil_iff).trans exists_cycleDetected_iff.symm)
  · exact ⟨_, _, names_nodeIds hx hc, names_nodeIds hy (hcode ▸ hc), hr.nodeIds_perm,
      Graph.nodup_duplicates _, fun _ => Graph.mem_duplicates_iff⟩
  · exact ⟨_, _, names_edgeIds hx hc, names_edgeIds hy (hcode ▸ hc), hr.edgeIds_perm,
      Graph.nodup_duplicates _, fun _ => Graph.mem_duplicates_iff⟩

end Rearranged

/-- The nodes and edges in their opposite order. -/
def reversed (f : Flow) : Flow :=
  { f with nodes := f.nodes.reverse, edges := f.edges.reverse }

theorem rearranged_reversed (f : Flow) : Rearranged f f.reversed :=
  ⟨f.nodes.reverse_perm.symm, f.edges.reverse_perm.symm⟩

/-- A flow whose actions lead to each other, and each of which comes twice. -/
def roundabout : Flow :=
  { id := "f", name := "Roundabout", active := false
    nodes := [⟨"t", "Order", .trigger, []⟩, ⟨"a", "Thanks", .action, []⟩,
      ⟨"b", "Hello", .action, []⟩, ⟨"a", "Thanks", .action, []⟩, ⟨"b", "Hello", .action, []⟩]
    edges := [⟨"1", "t", "a", none, none⟩, ⟨"2", "t", "b", none, none⟩,
      ⟨"3", "a", "b", none, none⟩, ⟨"4", "b", "a", none, none⟩]
    createdAt := .utc 0, updatedAt := .utc 0 }

/-- In the opposite order it is the other edge between them that closes a cycle, and nothing else
is the matter. -/
theorem roundabout_reversed : Rearranged roundabout roundabout.reversed ∧
    ((roundabout.findings.filter (·.code ≠ .cycleDetected)).map matter).Perm
      ((roundabout.reversed.findings.filter (·.code ≠ .cycleDetected)).map matter) ∧
    roundabout.cycleFindings.map (·.edgeId) = [some "4"] ∧
    roundabout.reversed.cycleFindings.map (·.edgeId) = [some "3"] := by
  have hr := roundabout.rearranged_reversed
  obtain ⟨-, hperm, -⟩ := hr.examine_same
  exact ⟨hr, hperm, by decide +kernel, by decide +kernel⟩

end Flow

end Campaign
