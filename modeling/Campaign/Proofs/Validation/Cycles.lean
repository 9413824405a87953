import Campaign.Validation.Examine
import Campaign.Proofs.Validation.Search
import Mathlib.Logic.Function.Iterate
/-!
# Cycles that are found

* `Quest.round` is one round of the search for cycles.  The search is over after at most two rounds
  for each start and each edge (`Quest.iterate_round`), and what every round keeps holds of what has
  been found in the end (`Quest.outcome_of_round`).
* The edges that are found break all cycles within reach (`Breaks`, `breaks_closingEdges`).  An edge
  may share its id with others, so that more edges go than the search has found to lead back; that
  every node within reach was entered does not rest on the edges that stay (`Quest.Covered`).
-/
namespace Campaign

open Relation

namespace Graph

variable {edges : List Edge} {starts within : List String}

/-! ## Round by round -/

/-- A search as it stands: what it has found out, its way, and the starts still to come. -/
structure Quest where
  found : Found
  way : List Frame
  starts : List String

namespace Quest

variable {q : Quest}

/-- One round: the next edge of the node entered last is followed, or that node is left, or else the
next start is taken. -/
def round (edges : List Edge) : Quest → Quest
  | ⟨found, [], []⟩ => ⟨found, [], []⟩
  | ⟨found, [], start :: starts⟩ =>
    if start ∈ found.finished then ⟨found, [], starts⟩
    else ⟨found, [⟨start, leaving edges start⟩], starts⟩
  | ⟨found, ⟨id, []⟩ :: way, starts⟩ =>
    ⟨{ found with finished := id :: found.finished }, way, starts⟩
  | ⟨found, ⟨id, edge :: rest⟩ :: way, starts⟩ =>
    if edge.target ∈ onWay (⟨id, rest⟩ :: way) then ⟨found.close edge, ⟨id, rest⟩ :: way, starts⟩
    else if edge.target ∈ found.finished then ⟨found, ⟨id, rest⟩ :: way, starts⟩
    else ⟨found, ⟨edge.target, leaving edges edge.target⟩ :: ⟨id, rest⟩ :: way, starts⟩

/-- What a search will have found out in the end. -/
def outcome (edges : List Edge) (q : Quest) : Found :=
  q.starts.foldl (searchFrom edges) (search edges q.found q.way)

/-- The nodes that were entered. -/
def entered (q : Quest) : List String := onWay q.way ++ q.found.finished

/-- How many rounds are left at most: two for each start and for each edge that is not followed yet,
to follow it and to leave the node to which it leads. -/
def toGo (edges : List Edge) (q : Quest) : Nat :=
  2 * q.starts.length + steps q.way + 2 * (unfollowed edges q.entered).length

theorem outcome_round (edges : List Edge) (q : Quest) :
    (q.round edges).outcome edges = q.outcome edges := by
  fun_cases round edges q with
  | case1 found => rfl
  | case2 found start starts hdone =>
    simp only [outcome, List.foldl_cons, search, searchFrom, if_pos hdone]
  | case3 found start starts hdone =>
    simp only [outcome, List.foldl_cons, search, searchFrom, if_neg hdone]
  | case4 found id way starts => simp only [outcome, search]
  | case5 found id edge rest way starts hway =>
    simp only [outcome]
    rw [search.eq_3, if_pos hway]
  | case6 found id edge rest way starts hway hdone =>
    simp only [outcome]
    rw [search.eq_3, if_neg hway, if_pos hdone]
  | case7 found id edge rest way starts hway hdone =>
    simp only [outcome]
    rw [search.eq_3, if_neg hway, if_neg hdone]

/-- A round brings the end nearer, unless it has come. -/
theorem toGo_round (edges : List Edge) (q : Quest) :
    q = ⟨q.found, [], []⟩ ∨ (q.round edges).toGo edges < q.toGo edges := by
  fun_cases round edges q with
  | case1 found => exact .inl rfl
  | case2 found start starts hdone =>
    refine .inr ?_
    simp only [toGo, entered, List.length_cons]
    omega
  | case3 found start starts hdone =>
    have := length_leaving_add_unfollowed edges hdone
    refine .inr ?_
    simp only [toGo, entered, onWay, List.map_cons, List.map_nil, List.nil_append, steps,
      List.cons_append, List.length_cons]
    omega
  | case4 found id way starts =>
    refine .inr ?_
    have hsame : unfollowed edges (onWay (⟨id, []⟩ :: way) ++ found.finished) =
        unfollowed edges (onWay way ++ id :: found.finished) := by
      have hperm : (onWay way ++ id :: found.finished).Perm (id :: onWay way ++ found.finished) :=
        List.perm_middle
      exact unfollowed_congr _ _ _ fun x => hperm.symm.mem_iff
    simp only [toGo, entered, hsame, steps, List.length_nil]
    omega
  | case5 found id edge rest way starts hway =>
    refine .inr ?_
    simp only [toGo, entered, Found.finished_close, onWay, List.map_cons, steps, List.length_cons]
    omega
  | case6 found id edge rest way starts hway hdone =>
    refine .inr ?_
    simp only [toGo, entered, onWay, List.map_cons, steps, List.length_cons]
    omega
  | case7 found id edge rest way starts hway hdone =>
    have hnew : edge.target ∉ onWay (⟨id, rest⟩ :: way) ++ found.finished := by
      simp only [List.mem_append, not_or]
      exact ⟨hway, hdone⟩
    have := length_leaving_add_unfollowed edges hnew
    refine .inr ?_
    simp only [toGo, entered, onWay, List.map_cons, List.cons_append, steps,
      List.length_cons] at this ⊢
    omega

theorem outcome_over (edges : List Edge) (found : Found) :
    outcome edges ⟨found, [], []⟩ = found := by
  simp only [outcome, List.foldl_nil, search]

/-- **The search is over in time**: after as many rounds nothing is left of it but what it has found
out. -/
theorem iterate_round {n : Nat} (h : q.toGo edges ≤ n) :
    (round edges)^[n] q = ⟨q.outcome edges, [], []⟩ := by
  induction n generalizing q with
  | zero =>
    have hq := (toGo_round edges q).resolve_right (by omega)
    rw [hq, outcome_over]
    rfl
  | succ n ih =>
    rcases toGo_round edges q with hq | hlt
    · rw [hq, outcome_over]
      exact Function.iterate_fixed rfl _
    · rw [Function.iterate_succ_apply, ← outcome_round]
      exact ih (by omega)

/-- What every round keeps holds in the end. -/
theorem outcome_of_round (edges : List Edge) {P : Quest → Prop}
    (hround : ∀ q, P q → P (q.round edges)) (h : P q) : P ⟨q.outcome edges, [], []⟩ := by
  rw [← iterate_round (Nat.le_refl (q.toGo edges))]
  exact Function.Iterate.rec P h hround _

/-! ## What every round keeps -/

/-- Whether an edge is still to be followed. -/
def Awaits (q : Quest) (e : Edge) : Prop := ∃ frame ∈ q.way, e ∈ frame.rest

/-- Whether every edge from a node that was entered is still to be followed or leads to such a
node. -/
def Covered (edges : List Edge) (q : Quest) : Prop :=
  ∀ e ∈ edges, e.source ∈ q.entered → e.target ∈ q.entered ∨ q.Awaits e

/-- It is enough to look at the nodes that are new and at the edges that were to be followed. -/
theorem Covered.of_covered {q' : Quest} (h : q.Covered edges) (hold : q.entered ⊆ q'.entered)
    (hnew : ∀ e ∈ edges, e.source ∈ q'.entered → e.source ∈ q.entered ∨ q'.Awaits e)
    (hrest : ∀ e, q.Awaits e → e.target ∈ q'.entered ∨ q'.Awaits e) : q'.Covered edges := by
  intro e he hsource
  rcases hnew e he hsource with hsource | hawaits
  · rcases h e he hsource with ht | hawaits
    · exact .inl (hold ht)
    · exact hrest e hawaits
  · exact .inr hawaits

variable {found found' : Found} {way : List Frame} {id : String} {edge : Edge} {rest : List Edge}

/-- What awaits at a node is its next edge, or awaits after that edge as well. -/
theorem Awaits.cons {e : Edge} (h : Awaits ⟨found, ⟨id, edge :: rest⟩ :: way, starts⟩ e) :
    e = edge ∨ Awaits ⟨found', ⟨id, rest⟩ :: way, starts⟩ e := by
  obtain ⟨frame, hframe, he⟩ := h
  rcases List.mem_cons.1 hframe with rfl | hframe
  · refine (List.mem_cons.1 he).imp_right fun he => ?_
    exact ⟨_, List.mem_cons_self, he⟩
  · exact .inr ⟨frame, List.mem_cons_of_mem _ hframe, he⟩

/-- An edge may lead to a node that was entered. -/
theorem Covered.pass (h : Covered edges ⟨found, ⟨id, edge :: rest⟩ :: way, starts⟩)
    (hfound : found'.finished = found.finished)
    (ht : edge.target ∈ onWay (⟨id, rest⟩ :: way) ++ found.finished) :
    Covered edges ⟨found', ⟨id, rest⟩ :: way, starts⟩ := by
  have hsame : entered ⟨found', ⟨id, rest⟩ :: way, starts⟩ =
      entered ⟨found, ⟨id, edge :: rest⟩ :: way, starts⟩ := by
    simp only [entered, hfound, onWay, List.map_cons]
  refine h.of_covered (fun x hx => hsame ▸ hx) (fun e _ hx => .inl (hsame ▸ hx)) fun e he => ?_
  rcases he.cons with rfl | he
  · exact .inl (hsame.symm ▸ ht)
  · exact .inr he

/-- A node that is entered brings its edges along. -/
theorem awaits_of_source {e : Edge} (he : e ∈ edges) (h : e.source = id) :
    Awaits ⟨found, ⟨id, leaving edges id⟩ :: way, starts⟩ e :=
  ⟨_, List.mem_cons_self, mem_leaving.2 ⟨he, h⟩⟩

theorem Awaits.push {e : Edge} {frame : Frame} {starts' : List String}
    (h : Awaits ⟨found, way, starts⟩ e) : Awaits ⟨found, frame :: way, starts'⟩ e := by
  obtain ⟨frame', hframe, he⟩ := h
  exact ⟨frame', List.mem_cons_of_mem _ hframe, he⟩

theorem Covered.round (h : q.Covered edges) : (q.round edges).Covered edges := by
  fun_cases Quest.round edges q with
  | case1 found => exact h
  | case2 found start starts hdone => exact h
  | case3 found start starts hdone =>
    refine h.of_covered (List.subset_cons_self _ _) (fun e he hsource => ?_) fun e he => ?_
    · exact (List.mem_cons.1 hsource).symm.imp_right (awaits_of_source he)
    · exact .inr he.push
  | case4 found id way starts =>
    have hperm : (way.map (·.id) ++ id :: found.finished).Perm _ := List.perm_middle
    refine h.of_covered hperm.symm.subset (fun e _ hsource => ?_) fun e he => ?_
    · exact .inl (hperm.subset hsource)
    · obtain ⟨frame, hframe, he⟩ := he
      rcases List.mem_cons.1 hframe with rfl | hframe
      · exact absurd he List.not_mem_nil
      · exact .inr ⟨frame, hframe, he⟩
  | case5 found id edge rest way starts hway =>
    exact h.pass (found.finished_close edge) (List.mem_append_left _ hway)
  | case6 found id edge rest way starts hway hdone =>
    exact h.pass rfl (List.mem_append_right _ hdone)
  | case7 found id edge rest way starts hway hdone =>
    refine h.of_covered (List.subset_cons_self _ _) (fun e he hsource => ?_) fun e he => ?_
    · exact (List.mem_cons.1 hsource).symm.imp_right (awaits_of_source he)
    · rcases he.cons with rfl | he
      · exact .inl List.mem_cons_self
      · exact .inr he.push

/-- No id is noted twice. -/
theorem nodup_round (h : q.found.closing.Nodup) : (q.round edges).found.closing.Nodup := by
  fun_cases Quest.round edges q with
  | case5 found id edge rest way starts hway => exact found.nodup_close edge h
  | _ => exact h

end Quest

/-- The search from its beginning. -/
def begin (starts : List String) : Quest := ⟨⟨[], []⟩, [], starts⟩

theorem outcome_begin (edges : List Edge) (starts : List String) :
    (begin starts).outcome edges = searchAll edges starts := by
  simp only [Quest.outcome, begin, search]
  rfl

/-- How long a search takes at most. -/
theorem toGo_begin (edges : List Edge) (starts : List String) :
    (begin starts).toGo edges = 2 * (starts.length + edges.length) := by
  have hall : unfollowed edges [] = edges := List.filter_eq_self.2 (by simp)
  simp [Quest.toGo, begin, Quest.entered, onWay, steps, hall, Nat.mul_add]

/-- What a search has done with is closed under all edges that it follows. -/
theorem finished_closed {e : Edge} (he : e ∈ edges)
    (hsource : e.source ∈ (searchAll edges starts).finished) :
    e.target ∈ (searchAll edges starts).finished := by
  have hbegin : (begin starts).Covered edges := fun e _ hsource => absurd hsource List.not_mem_nil
  have hcovered := Quest.outcome_of_round edges (fun _ h => h.round) hbegin
  rw [outcome_begin] at hcovered
  refine (hcovered e he hsource).resolve_right ?_
  rintro ⟨frame, hframe, -⟩
  exact absurd hframe List.not_mem_nil

theorem nodup_closing (edges : List Edge) (starts : List String) :
    (searchAll edges starts).closing.Nodup := by
  have hbegin : (begin starts).found.closing.Nodup := List.nodup_nil
  have hnodup := Quest.outcome_of_round edges (P := fun q => q.found.closing.Nodup)
    (fun _ => Quest.nodup_round) hbegin
  rwa [outcome_begin] at hnodup

/-! ## Cycles within reach -/

/-- Whether an edge other than a loop leads from one node within reach to another. -/
def Joins (edges : List Edge) (within : List String) (a b : String) : Prop :=
  a ≠ b ∧ a ∈ within ∧ b ∈ within ∧ Leads edges a b

/-- Whether an edge lies on a cycle within reach. -/
def OnCycle (edges : List Edge) (within : List String) (e : Edge) : Prop :=
  e ∈ edges ∧ Joins edges within e.source e.target ∧
    ReflTransGen (Joins edges within) e.target e.source

/-- The edges whose ids are not among some. -/
def without (edges : List Edge) (ids : List String) : List Edge :=
  edges.filter (·.id ∉ ids)

/-- Whether edges with some ids are what has to go for there to be no cycle within reach. -/
structure Breaks (edges : List Edge) (within ids : List String) : Prop where
  nil_iff : ids = [] ↔ ∀ id, ¬ TransGen (Joins edges within) id id
  onCycle : ∀ x ∈ ids, ∃ e, OnCycle edges within e ∧ e.id = x
  nodup : ids.Nodup
  acyclic : ∀ id, ¬ TransGen (Joins (without edges ids) within) id id

/-- The search follows every edge that joins two nodes within reach, -/
theorem Joins.leads {a b : String} (h : Joins edges within a b) :
    Leads (proper edges within) a b := by
  obtain ⟨hne, ha, -, e, he, rfl, rfl⟩ := h
  exact ⟨e, List.mem_filter.2 ⟨he, decide_eq_true ⟨hne, ha⟩⟩, rfl, rfl⟩

/-- and no others, since no edge leads out of reach. -/
theorem joins_of_leads (hclosed : ∀ a ∈ within, ∀ b, Leads edges a b → b ∈ within) {a b : String}
    (h : Leads (proper edges within) a b) : Joins edges within a b := by
  obtain ⟨e, he, rfl, rfl⟩ := h
  obtain ⟨he, hproper⟩ := List.mem_filter.1 he
  obtain ⟨hne, hsource⟩ := of_decide_eq_true hproper
  have hlead : Leads edges e.source e.target := ⟨e, he, rfl, rfl⟩
  exact ⟨hne, hsource, hclosed _ hsource _ hlead, hlead⟩

theorem reachable_closed {a b : String} (ha : a ∈ reachable edges starts)
    (hab : Leads edges a b) : b ∈ reachable edges starts :=
  explore_closed (fun _ hx => absurd hx List.not_mem_nil) ha hab

theorem proper_without (edges : List Edge) (within ids : List String) :
    proper (without edges ids) within = without (proper edges within) ids := by
  simp only [proper, without, List.filter_filter, Bool.and_comm]

/-- The search comes to every node within reach: loops lead nowhere else. -/
theorem mem_finished_of_leads (hstarts : starts ⊆ (searchAll (proper edges within) starts).finished)
    (hwithin : starts ⊆ within) (hclosed : ∀ a ∈ within, ∀ b, Leads edges a b → b ∈ within)
    {start id : String} (hs : start ∈ starts) (h : ReflTransGen (Leads edges) start id) :
    id ∈ within ∧ id ∈ (searchAll (proper edges within) starts).finished := by
  induction h with
  | refl => exact ⟨hwithin hs, hstarts hs⟩
  | @tail a b _ hab ih =>
    obtain ⟨ha, hfinished⟩ := ih
    refine ⟨hclosed a ha b hab, ?_⟩
    by_cases hne : a = b
    · exact hne ▸ hfinished
    · have hjoins : Joins edges within a b := ⟨hne, ha, hclosed a ha b hab, hab⟩
      obtain ⟨e, he, rfl, rfl⟩ := hjoins.leads
      exact finished_closed he hfinished

/-- There is no cycle within reach without the edges that are found. -/
theorem acyclic_without {id : String} (hid : id ∈ reachable edges starts) :
    ¬ TransGen (Leads (proper (without edges (closingEdges edges starts (reachable edges starts)))
      (reachable edges starts))) id id := by
  rw [proper_without, closingEdges_eq]
  have hnil : ∀ kept, Settled kept (Found.mk [] []).finished := fun _ => trivial
  obtain ⟨hsettled, hall⟩ := foldl_settled List.filter_sublist.subset (hnil _)
    fun e he => of_decide_eq_true (List.mem_filter.1 he).2
  obtain ⟨start, hs, hlead⟩ := leads_of_mem_reachable hid
  have hstarts : starts ⊆ reachable edges starts := (subset_explore edges [] starts).2
  exact hsettled.acyclic (mem_finished_of_leads (List.append_subset.1 hall).1 hstarts
    (fun _ ha _ => reachable_closed ha) hs hlead).2

/-- **The edges that are found break all cycles within reach.** -/
theorem breaks_closingEdges (edges : List Edge) (starts : List String) :
    Breaks edges (reachable edges starts) (closingEdges edges starts (reachable edges starts)) := by
  have hclosed : ∀ a ∈ reachable edges starts, ∀ b, Leads edges a b → b ∈ reachable edges starts :=
    fun _ ha _ => reachable_closed ha
  have honCycle : ∀ x ∈ closingEdges edges starts (reachable edges starts),
      ∃ e, OnCycle edges (reachable edges starts) e ∧ e.id = x := by
    intro x hx
    obtain ⟨e, ⟨he, hback⟩, rfl⟩ := closes_of_mem_closingEdges hx
    refine ⟨e, ⟨(List.mem_filter.1 he).1, joins_of_leads hclosed ⟨e, he, rfl, rfl⟩, ?_⟩, rfl⟩
    exact ReflTransGen.mono (fun _ _ h => joins_of_leads hclosed h) _ _ hback
  have hacyclic : ∀ id, ¬ TransGen (Joins (without edges
      (closingEdges edges starts (reachable edges starts))) (reachable edges starts)) id id := by
    intro id hcycle
    obtain ⟨_, ⟨-, hid, -⟩, -⟩ := TransGen.head'_iff.1 hcycle
    exact acyclic_without hid (TransGen.mono (fun _ _ h => h.leads) _ _ hcycle)
  refine ⟨⟨fun hnil => ?_, fun hnone => ?_⟩, honCycle, nodup_closing _ _, hacyclic⟩
  · have hall : without edges [] = edges := List.filter_eq_self.2 (by simp)
    rwa [hnil, hall] at hacyclic
  · refine List.eq_nil_iff_forall_not_mem.2 fun x hx => ?_
    obtain ⟨e, ⟨-, hjoins, hback⟩, -⟩ := honCycle x hx
    exact hnone e.source (.head' hjoins hback)

end Graph

namespace Flow

/-- **The search for cycles is sound and complete**: it is over after two rounds at most for each
trigger and each edge, and the edges that it has found lie on cycles within reach and break them
all. -/
theorem cycles_found (f : Flow) :
    (∃ finished, ∀ n, (Graph.Quest.round (Graph.proper f.edges f.reachable))^[
        2 * (f.triggerIds.length + f.edges.length) + n] (Graph.begin f.triggerIds) =
      ⟨⟨finished, Graph.closingEdges f.edges f.triggerIds f.reachable⟩, [], []⟩) ∧
      Graph.Breaks f.edges f.reachable (Graph.closingEdges f.edges f.triggerIds f.reachable) := by
  refine ⟨⟨(Graph.searchAll (Graph.proper f.edges f.reachable) f.triggerIds).finished,
    fun n => ?_⟩, Graph.breaks_closingEdges _ _⟩
  have hfewer : (Graph.proper f.edges f.reachable).length ≤ f.edges.length :=
    List.length_filter_le _ _
  have htime := Graph.toGo_begin (Graph.proper f.edges f.reachable) f.triggerIds
  rw [Graph.Quest.iterate_round (by omega), Graph.outcome_begin]
  rfl

end Flow

end Campaign
