import Campaign.Flow.Basic
/-!
# Searches in a flow graph

* `reachable` explores a graph breadth first: the ids that can be reached from some starts;
* `closingEdges` explores it depth first: the ids of edges that lead back to a node on the way;
* `duplicates` are the ids that occur again in a list, in the order in which they do so first.

Both searches end because every edge is followed at most once: only a node that is entered brings
its edges along, and it is entered once.
-/
namespace Campaign.Graph

/-- The edges that leave a node. -/
def leaving (edges : List Edge) (id : String) : List Edge := edges.filter (·.source = id)

/-- The edges that leave none of the given nodes. -/
def unfollowed (edges : List Edge) (entered : List String) : List Edge :=
  edges.filter (·.source ∉ entered)

theorem length_leaving_add_unfollowed (edges : List Edge) {id : String} {entered : List String}
    (h : id ∉ entered) :
    (leaving edges id).length + (unfollowed edges (id :: entered)).length =
      (unfollowed edges entered).length := by
  induction edges with
  | nil => rfl
  | cons e edges ih =>
    simp only [leaving, unfollowed, List.filter_cons] at ih ⊢
    by_cases he : e.source = id
    · simp [he, h] at ih ⊢
      omega
    · by_cases hm : e.source ∈ entered <;> simp [he, hm] at ih ⊢ <;> omega

theorem unfollowed_congr (edges : List Edge) (entered entered' : List String)
    (h : ∀ id, id ∈ entered ↔ id ∈ entered') :
    unfollowed edges entered = unfollowed edges entered' := by
  simp only [unfollowed, h]

/-- Explores a graph breadth first from the nodes of a queue; `visited` holds those seen. -/
def explore (edges : List Edge) (visited : List String) : List String → List String
  | [] => visited
  | id :: queue =>
    if id ∈ visited then explore edges visited queue
    else
      let next := ((leaving edges id).map (·.target)).filter (· ∉ id :: visited)
      explore edges (id :: visited) (queue ++ next)
termination_by queue => queue.length + (unfollowed edges visited).length
decreasing_by
  · simp
  · rename_i h
    have h₁ := length_leaving_add_unfollowed edges h
    have h₂ : (((leaving edges id).map (·.target)).filter (· ∉ id :: visited)).length ≤
        (leaving edges id).length := by
      simpa using List.length_filter_le (p := fun t => decide (t ∉ id :: visited))
        ((leaving edges id).map (·.target))
    simp only [List.length_append, List.length_cons]
    omega

/-- The ids that can be reached from the starts. -/
def reachable (edges : List Edge) (starts : List String) : List String := explore edges [] starts

/-- A node on the way of a depth-first search, with its edges that were not yet followed. -/
structure Frame where
  id : String
  rest : List Edge

/-- What a depth-first search has found out. -/
structure Found where
  /-- The nodes that are done with. -/
  finished : List String
  /-- The ids of the edges that led back to a node on the way. -/
  closing : List String

/-- The nodes on the way. -/
def onWay (way : List Frame) : List String := way.map (·.id)

/-- The steps still to be taken along a way: to leave each node, and to follow each edge. -/
def steps : List Frame → Nat
  | [] => 0
  | frame :: way => 2 * frame.rest.length + 1 + steps way

/-- Notes an edge that leads back, once for each id. -/
def Found.close (found : Found) (edge : Edge) : Found :=
  if edge.id ∈ found.closing then found
  else { found with closing := found.closing ++ [edge.id] }

/-- Searches depth first along a way, the node entered last at its head. -/
def search (edges : List Edge) (found : Found) (way : List Frame) : Found :=
  match way with
  | [] => found
  | ⟨id, []⟩ :: way => search edges { found with finished := id :: found.finished } way
  | ⟨id, edge :: rest⟩ :: way =>
    if edge.target ∈ onWay (⟨id, rest⟩ :: way) then
      search edges (found.close edge) (⟨id, rest⟩ :: way)
    else if edge.target ∈ found.finished then search edges found (⟨id, rest⟩ :: way)
    else
      search edges found (⟨edge.target, leaving edges edge.target⟩ :: ⟨id, rest⟩ :: way)
termination_by steps way + 2 * (unfollowed edges (onWay way ++ found.finished)).length
decreasing_by
  · rw [unfollowed_congr edges _ (onWay (⟨id, []⟩ :: way) ++ found.finished)]
    · simp [steps]
    · intro x
      simp only [onWay, List.map_cons, List.mem_append, List.mem_cons]
      grind
  · have h : (found.close edge).finished = found.finished := by
      unfold Found.close; split <;> rfl
    simp only [h, onWay, List.map_cons, steps, List.length_cons]
    omega
  · simp only [onWay, List.map_cons, steps, List.length_cons]
    omega
  · rename_i h₁ h₂
    have h : edge.target ∉ onWay (⟨id, rest⟩ :: way) ++ found.finished := by
      simp only [List.mem_append, not_or]
      exact ⟨h₁, h₂⟩
    have := length_leaving_add_unfollowed edges h
    simp only [onWay, List.map_cons, List.cons_append, steps, List.length_cons] at this ⊢
    omega

/-- Searches from each start in turn, unless it is done with. -/
def searchAll (edges : List Edge) (starts : List String) : Found :=
  starts.foldl (fun found start =>
    if start ∈ found.finished then found else search edges found [⟨start, leaving edges start⟩])
    ⟨[], []⟩

/-- The ids of edges that close a cycle among the nodes within reach; loops at one node do not
count. -/
def closingEdges (edges : List Edge) (starts within : List String) : List String :=
  (searchAll (edges.filter fun e => e.source ≠ e.target ∧ e.source ∈ within) starts).closing

/-- Collects the ids that were seen before, each once. -/
def repeated (seen found : List String) : List String → List String
  | [] => found
  | id :: ids =>
    repeated (id :: seen) (if id ∈ seen ∧ id ∉ found then found ++ [id] else found) ids

/-- The ids that occur again, in the order in which they do so first. -/
def duplicates (ids : List String) : List String := repeated [] [] ids

end Campaign.Graph
