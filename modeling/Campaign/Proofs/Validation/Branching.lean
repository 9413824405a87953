import Campaign.Engine.Walk
import Campaign.Proofs.Validation.WellFormed
/-!
# Missing branches

An examination reports that a condition misses the branch for a result when no edge that leaves it
bears the first name of that branch, `true` or `false` (`reportsMissing_iff`).  A run goes on along
the edges that bear either name, `yes` and `no` included (`targets_branch_eq_nil_iff`).

So a branch that is not reported as missing can be followed, but not the other way round: the two
agree unless all edges of a branch bear its other name (`missing_agrees_iff`).
-/
namespace Campaign

namespace Finding

variable {code : FindingCode} {id : String}

/-- Whether some findings tell of a node that something is the matter with it. -/
def Tell (findings : List Finding) (code : FindingCode) (id : String) : Prop :=
  ∃ x ∈ findings, x.code = code ∧ x.nodeId = some id

@[simp] theorem tell_append (l l' : List Finding) :
    Tell (l ++ l') code id ↔ Tell l code id ∨ Tell l' code id := by
  simp only [Tell, List.mem_append, or_and_right, exists_or]

@[simp] theorem tell_flatMap {α : Type} (l : List α) (g : α → List Finding) :
    Tell (l.flatMap g) code id ↔ ∃ a ∈ l, Tell (g a) code id := by
  simp only [Tell, List.mem_flatMap]
  constructor
  · rintro ⟨x, ⟨a, ha, hx⟩, hcode⟩
    exact ⟨a, ha, x, hx, hcode⟩
  · rintro ⟨a, ha, x, hx, hcode⟩
    exact ⟨x, ⟨a, ha, hx⟩, hcode⟩

@[simp] theorem tell_reportIf (condition : Bool) (x : Finding) :
    Tell (reportIf condition x) code id ↔
      condition = true ∧ x.code = code ∧ x.nodeId = some id := by
  cases condition <;> simp [Tell, reportIf]

end Finding

/-- The code of the finding that the branch for a result is missing. -/
def FindingCode.missingPath (result : Bool) : FindingCode :=
  if result then .missingTruePath else .missingFalsePath

namespace Flow

open Finding

variable {f : Flow} {n : Node} {id : String} {result : Bool}

/-- Whether an examination reports that the branch for a result is missing at a node. -/
def ReportsMissing (f : Flow) (id : String) (result : Bool) : Prop :=
  Tell f.examine.findings (.missingPath result) id

/-- The name that the branch for a result may bear instead of its first. -/
def otherName (result : Bool) : String := if result then "yes" else "no"

theorem taken_iff {e : Edge} : e.taken result = true ↔
    e.branch = some (branchName result) ∨ e.branch = some (otherName result) := by
  unfold Edge.taken
  cases e.branch with
  | none => simp
  | some name => cases result <;> simp [Edge.branchNames, branchName, otherName]

/-- A run has nowhere to go for a result when none of the edges is taken for it. -/
theorem targets_branch_eq_nil_iff :
    f.targets id (.branch result) = [] ↔ ∀ e ∈ f.outgoing id, e.taken result = false := by
  simp [targets, branch]

theorem not_tell_configFindings : ¬ Tell f.configFindings (.missingPath result) id := by
  simp only [configFindings, tell_flatMap, not_exists, not_and]
  intro n _
  cases n.configFault? <;> cases result <;> simp [Tell, FindingCode.missingPath]

theorem not_tell_cycleFindings : ¬ Tell f.cycleFindings (.missingPath result) id := by
  rintro ⟨x, hx, -, hid⟩
  obtain ⟨closing, -, rfl⟩ := List.mem_map.1 hx
  cases hid

/-- The check of the branches, and no other, reports a branch as missing. -/
theorem tell_findings_iff : Tell f.findings (.missingPath result) id ↔
    Tell f.branchFindings (.missingPath result) id := by
  simp only [findings, tell_append, not_tell_configFindings, not_tell_cycleFindings, or_false]
  cases result <;>
    simp [labelFindings, edgeIdFindings, triggerFindings, referenceFindings, loopFindings,
      duplicateFindings, sizeFindings, connectionFindings, reachFindings, endFindings,
      actionFindings, FindingCode.missingPath]

/-- **A branch is reported as missing when no edge bears its first name.** -/
theorem reportsMissing_iff (hn : n ∈ f.nodes) (hk : n.kind = .condition) :
    f.ReportsMissing n.id result ↔
      ∀ e ∈ f.outgoing n.id, e.branch ≠ some (branchName result) := by
  have hbranch (id : String) : f.hasBranch id (branchName result) = false ↔
      ∀ e ∈ f.outgoing id, e.branch ≠ some (branchName result) := by
    simp [hasBranch]
  have htell : Tell f.branchFindings (.missingPath result) n.id ↔
      ∃ n' ∈ f.nodes, n'.kind = .condition ∧ f.hasBranch n'.id (branchName result) = false ∧
        n'.id = n.id := by
    cases result <;> simp [branchFindings, FindingCode.missingPath, branchName, and_assoc]
  change Tell f.findings _ _ ↔ _
  rw [tell_findings_iff, htell]
  constructor
  · rintro ⟨n', -, -, hnone, hid⟩
    rwa [hid, hbranch] at hnone
  · intro hnone
    exact ⟨n, hn, hk, (hbranch n.id).2 hnone, rfl⟩

/-- A branch that is not reported as missing can be followed. -/
theorem reportsMissing_of_targets_eq_nil (hn : n ∈ f.nodes) (hk : n.kind = .condition)
    (h : f.targets n.id (.branch result) = []) : f.ReportsMissing n.id result := by
  rw [reportsMissing_iff hn hk]
  intro e he hname
  have htaken := targets_branch_eq_nil_iff.1 h e he
  simp [taken_iff.2 (.inl hname)] at htaken

/-- **When an examination and a run agree on the branches of a condition.**  A branch is reported as
missing just when a run would have nowhere to go for its result, unless edges bear the other name of
the branch and none bears the first.  What a run would have nowhere to go for is always reported. -/
theorem missing_agrees_iff (f : Flow) {n : Node} (hn : n ∈ f.nodes) (hk : n.kind = .condition)
    (result : Bool) :
    ((f.ReportsMissing n.id result ↔ ∀ e ∈ f.outgoing n.id, e.taken result = false) ↔
      ((∃ e ∈ f.outgoing n.id, e.branch = some (otherName result)) →
        ∃ e ∈ f.outgoing n.id, e.branch = some (branchName result))) ∧
    ((∀ e ∈ f.outgoing n.id, e.taken result = false) ↔ f.targets n.id (.branch result) = []) ∧
    (f.targets n.id (.branch result) = [] → f.ReportsMissing n.id result) := by
  have hreported (hnowhere : f.targets n.id (.branch result) = []) : f.ReportsMissing n.id result :=
    reportsMissing_of_targets_eq_nil hn hk hnowhere
  refine ⟨?_, targets_branch_eq_nil_iff.symm, hreported⟩
  constructor
  · rintro hagree ⟨e, he, hother⟩
    by_contra hnone
    have hmissing : f.ReportsMissing n.id result := by
      rw [reportsMissing_iff hn hk]
      intro e' he' hname
      exact hnone ⟨e', he', hname⟩
    have htaken := hagree.1 hmissing e he
    simp [taken_iff.2 (.inr hother)] at htaken
  · intro hnamed
    constructor
    · intro hmissing e he
      rw [reportsMissing_iff hn hk] at hmissing
      by_contra htaken
      rw [Bool.not_eq_false, taken_iff] at htaken
      rcases htaken with hname | hother
      · exact hmissing e he hname
      · obtain ⟨e', he', hname⟩ := hnamed ⟨e, he, hother⟩
        exact hmissing e' he' hname
    · intro htaken
      exact hreported (targets_branch_eq_nil_iff.2 htaken)

/-- A flow that asks whether an order is large, with the names of the branches for either result. -/
def question (yes no : String) : Flow :=
  let large : Value :=
    .object [("left", .text "order.total"), ("op", .text "greater_than"), ("right", .int 10)]
  let logic : Value := .object [("type", .text "AND"), ("clauses", .list [large])]
  let hello : List (String × Value) := [("toField", .text "ann@example.org"), ("body", .text "Hi")]
  { id := "f", name := "Question", active := false
    nodes := [⟨"t", "Order", .trigger, []⟩, ⟨"c", "Large?", .condition, [("logic", logic)]⟩,
      ⟨"a", "Thanks", .action, hello⟩, ⟨"b", "Hello", .action, hello⟩]
    edges := [⟨"1", "t", "c", none, none⟩, ⟨"2", "c", "a", none, some yes⟩,
      ⟨"3", "c", "b", none, some no⟩]
    createdAt := .utc 0, updatedAt := .utc 0 }

/-- For the result that has an edge with the first name of its branch the two agree, and for the
other they do not. -/
theorem question_missing_agrees :
    ∃ n ∈ (question "true" "no").nodes, n.kind = .condition ∧
      ((question "true" "no").ReportsMissing n.id true ↔
        ∀ e ∈ (question "true" "no").outgoing n.id, e.taken true = false) ∧
      ¬ ((question "true" "no").ReportsMissing n.id false ↔
        ∀ e ∈ (question "true" "no").outgoing n.id, e.taken false = false) := by
  obtain ⟨n, hn, hk, hid⟩ :
      ∃ n ∈ (question "true" "no").nodes, n.kind = .condition ∧ n.id = "c" :=
    ⟨_, List.mem_cons_of_mem _ List.mem_cons_self, rfl, rfl⟩
  refine ⟨n, hn, hk, ?_, ?_⟩
  · rw [(missing_agrees_iff _ hn hk true).1, hid]
    decide
  · rw [(missing_agrees_iff _ hn hk false).1, hid]
    decide

/-- **A branch that bears its other name is reported as missing and can be followed.**  The flow has
no other findings. -/
theorem question_yes_no_missing :
    (question "yes" "no").examine.codes = [.missingTruePath, .missingFalsePath] ∧
      (question "yes" "no").ReportsMissing "c" true ∧
      (question "yes" "no").targets "c" (.branch true) = ["a"] ∧
      ¬ ((question "yes" "no").ReportsMissing "c" true ↔
        ∀ e ∈ (question "yes" "no").outgoing "c", e.taken true = false) ∧
      ¬ ((question "yes" "no").ReportsMissing "c" false ↔
        ∀ e ∈ (question "yes" "no").outgoing "c", e.taken false = false) := by
  have hmissing (result : Bool) : (question "yes" "no").ReportsMissing "c" result := by
    have hx : (question "yes" "no").examine.findings.any
        (fun x => x.code = .missingPath result ∧ x.nodeId = some "c") = true := by
      cases result <;> decide +kernel
    obtain ⟨x, hx, hcode⟩ := List.any_eq_true.1 hx
    exact ⟨x, hx, of_decide_eq_true hcode⟩
  refine ⟨by decide +kernel, hmissing true, by decide, fun h => ?_, fun h => ?_⟩
  · revert h
    rw [iff_true_left (hmissing true)]
    decide
  · revert h
    rw [iff_true_left (hmissing false)]
    decide

end Flow

end Campaign
