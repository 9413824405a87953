import Campaign.Proofs.Entries
import Campaign.Proofs.Validation.Search
import Mathlib.Logic.Function.Iterate
/-!
# What is within reach

An `Adjacency` names the targets of edges by the id that they leave.  It may name a target more than
once, the id itself, or ids of which it has nothing to say.  The edges of a flow have an adjacency
(`Adjacency.ofEdges`), and every adjacency is that of some edges (`Adjacency.edges`).

* `Sweep.round` is one round of the breadth-first search.  The search is over after at most one
  round for each start and each target that is named (`Sweep.iterate_round`).
* It finds each id to which a start leads once, and no others (`Adjacency.within_reach`).
-/
namespace Campaign.Graph

open Relation

/-- The targets of edges, in order, by the id that the edges leave. -/
abbrev Adjacency := OrderedMap (List String)

namespace Adjacency

/-- The targets that are named for an id. -/
def targets (m : Adjacency) (id : String) : List String := (m.get? id).getD []

/-- Whether an id is among the targets that are named for another. -/
def Leads (m : Adjacency) (a b : String) : Prop := b ∈ m.targets a

/-- The edges from an id to each of some targets. -/
def fan (source : String) (targets : List String) : List Edge :=
  targets.map fun target => ⟨"", source, target, none, none⟩

/-- The edges of which an adjacency tells. -/
def edges (m : Adjacency) : List Edge := m.entries.flatMap fun e => fan e.1 e.2

/-- Names the target of one edge more. -/
def add (m : Adjacency) (e : Edge) : Adjacency :=
  m.put e.source (m.targets e.source ++ [e.target])

/-- The adjacency of some edges. -/
def ofEdges (edges : List Edge) : Adjacency := edges.foldl add .empty

variable {m : Adjacency} {id : String}

theorem targets_add (m : Adjacency) (e : Edge) (id : String) :
    (m.add e).targets id = m.targets id ++ (leaving [e] id).map (·.target) := by
  simp only [targets, add, OrderedMap.get?_put, leaving]
  by_cases h : id = e.source
  · simp [h]
  · simp [h, Ne.symm h]

theorem targets_foldl (edges : List Edge) (m : Adjacency) (id : String) :
    (edges.foldl add m).targets id = m.targets id ++ (leaving edges id).map (·.target) := by
  induction edges generalizing m with
  | nil => simp [leaving]
  | cons e edges ih =>
    have hsplit : leaving (e :: edges) id = leaving [e] id ++ leaving edges id :=
      List.filter_append [e] edges
    rw [List.foldl_cons, ih, targets_add, hsplit, List.map_append, List.append_assoc]

/-- An adjacency of edges names their targets in the order of the edges. -/
theorem targets_ofEdges (edges : List Edge) (id : String) :
    (ofEdges edges).targets id = (leaving edges id).map (·.target) :=
  targets_foldl edges .empty id

theorem leaving_fan (source : String) (targets : List String) (id : String) :
    leaving (fan source targets) id = if id = source then fan source targets else [] := by
  split
  · rename_i h
    exact List.filter_eq_self.2 (by simp [fan, h])
  · rename_i h
    exact List.filter_eq_nil_iff.2 (by simp [fan, Ne.symm h])

theorem map_target_fan (source : String) (targets : List String) :
    (fan source targets).map (·.target) = targets := by
  rw [fan, List.map_map]
  exact List.map_id targets

theorem targets_fans {entries : List (String × List String)}
    (h : (entries.map Prod.fst).Nodup) (id : String) :
    (leaving (entries.flatMap fun e => fan e.1 e.2) id).map (·.target) =
      (entries.lookup id).getD [] := by
  induction entries with
  | nil => rfl
  | cons e entries ih =>
    obtain ⟨he, hentries⟩ := List.nodup_cons.1 h
    have hsplit : leaving ((e :: entries).flatMap fun e => fan e.1 e.2) id =
        leaving (fan e.1 e.2) id ++ leaving (entries.flatMap fun e => fan e.1 e.2) id :=
      List.filter_append _ _
    rw [hsplit, List.map_append, ih hentries, leaving_fan, Entries.lookup_cons]
    by_cases hid : id = e.1
    · -- no other entry has this key
      rw [if_pos hid, if_pos hid, hid, Entries.lookup_of_not_mem he, map_target_fan]
      exact List.append_nil _
    · rw [if_neg hid, if_neg hid]
      rfl

/-- The edges of which an adjacency tells lead to the targets that it names. -/
theorem targets_edges (m : Adjacency) (id : String) :
    (leaving m.edges id).map (·.target) = m.targets id :=
  targets_fans m.distinct id

theorem leads_edges : Graph.Leads m.edges = m.Leads := by
  funext a b
  rw [Leads, ← targets_edges, List.mem_map]
  simp only [Graph.Leads, mem_leaving, and_assoc]

end Adjacency

/-! ## Round by round -/

/-- A breadth-first search as it stands: what it has visited, and what it is still to visit. -/
structure Sweep where
  visited : List String
  queue : List String

namespace Sweep

variable {m : Adjacency} {s : Sweep}

/-- One round: the first id of the queue is visited, unless it was, and its targets that were not
visited yet join the queue. -/
def round (m : Adjacency) : Sweep → Sweep
  | ⟨visited, []⟩ => ⟨visited, []⟩
  | ⟨visited, id :: queue⟩ =>
    if id ∈ visited then ⟨visited, queue⟩
    else ⟨id :: visited, queue ++ (m.targets id).filter (· ∉ id :: visited)⟩

/-- What a search will have visited in the end. -/
def outcome (m : Adjacency) (s : Sweep) : List String := explore m.edges s.visited s.queue

/-- How many rounds are left at most: one for each id in the queue, and one for each target of an id
that is not visited yet. -/
def toGo (m : Adjacency) (s : Sweep) : Nat :=
  s.queue.length + (unfollowed m.edges s.visited).length

theorem outcome_round (m : Adjacency) (s : Sweep) : (s.round m).outcome m = s.outcome m := by
  fun_cases round m s with
  | case1 visited => rfl
  | case2 visited id queue hid => simp only [outcome, explore, if_pos hid]
  | case3 visited id queue hid =>
    simp only [outcome]
    rw [explore.eq_2, if_neg hid, Adjacency.targets_edges]

/-- A round brings the end nearer, unless it has come. -/
theorem toGo_round (m : Adjacency) (s : Sweep) :
    s = ⟨s.visited, []⟩ ∨ (s.round m).toGo m < s.toGo m := by
  fun_cases round m s with
  | case1 visited => exact .inl rfl
  | case2 visited id queue hid =>
    refine .inr ?_
    simp only [toGo, List.length_cons]
    omega
  | case3 visited id queue hid =>
    have hunfollowed := length_leaving_add_unfollowed m.edges hid
    have hnew := List.length_filter_le (fun t => decide (t ∉ id :: visited)) (m.targets id)
    rw [← Adjacency.targets_edges, List.length_map] at hnew
    refine .inr ?_
    simp only [toGo, List.length_append, List.length_cons, ← Adjacency.targets_edges] at hnew ⊢
    omega

/-- **The search is over in time**: after as many rounds the queue is empty. -/
theorem iterate_round {n : Nat} (h : s.toGo m ≤ n) : (round m)^[n] s = ⟨s.outcome m, []⟩ := by
  induction n generalizing s with
  | zero =>
    have hs := (toGo_round m s).resolve_right (by omega)
    rw [hs]
    simp only [outcome, explore]
    rfl
  | succ n ih =>
    rcases toGo_round m s with hs | hlt
    · rw [hs]
      simp only [outcome, explore]
      exact Function.iterate_fixed rfl _
    · rw [Function.iterate_succ_apply, ← outcome_round]
      exact ih (by omega)

end Sweep

/-! ## What a search finds -/

theorem nodup_explore (edges : List Edge) {visited queue : List String} (h : visited.Nodup) :
    (explore edges visited queue).Nodup := by
  fun_induction explore edges visited queue with
  | case1 visited => exact h
  | case2 visited id queue hid ih => exact ih h
  | case3 visited id queue hid next ih => exact ih (List.nodup_cons.2 ⟨hid, h⟩)

/-- A search asks of the edges only where they lead from each id. -/
theorem explore_congr {edges edges' : List Edge}
    (h : ∀ id, (leaving edges id).map (·.target) = (leaving edges' id).map (·.target))
    (visited queue : List String) :
    explore edges visited queue = explore edges' visited queue := by
  fun_induction explore edges visited queue with
  | case1 visited => simp only [explore]
  | case2 visited id queue hid ih => rw [ih, explore.eq_2 edges', if_pos hid]
  | case3 visited id queue hid next ih => rw [ih, explore.eq_2 edges', if_neg hid, ← h]

namespace Adjacency

/-- **A breadth-first search finds exactly what is within reach.**  Whatever the adjacency and the
starts, it is over after at most one round for each start and each target that is named; by then it
has visited each id to which a start leads once, and no others.  The edges of a flow are searched by
the adjacency that they have. -/
theorem within_reach (m : Adjacency) (starts : List String) :
    (∀ n, (Sweep.round m)^[starts.length + m.edges.length + n] ⟨[], starts⟩ =
      ⟨reachable m.edges starts, []⟩) ∧
    (reachable m.edges starts).Nodup ∧
    (∀ id, id ∈ reachable m.edges starts ↔ ∃ start ∈ starts, ReflTransGen m.Leads start id) ∧
    ∀ edges, reachable edges starts = reachable (ofEdges edges).edges starts := by
  refine ⟨fun n => ?_, nodup_explore _ List.nodup_nil, fun id => ?_, fun edges => ?_⟩
  · have hall : unfollowed m.edges [] = m.edges := List.filter_eq_self.2 (by simp)
    refine Sweep.iterate_round ?_
    simp only [Sweep.toGo, hall]
    omega
  · rw [← leads_edges]
    constructor
    · exact leads_of_mem_reachable
    · rintro ⟨start, hs, hlead⟩
      exact mem_reachable_of_leads hs hlead
  · refine explore_congr (fun id => ?_) [] starts
    rw [targets_edges, targets_ofEdges]

end Adjacency

end Campaign.Graph
