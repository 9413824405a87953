import Campaign.Validation.Graph
import Mathlib.Data.List.Nodup
import Mathlib.Logic.Relation
/-!
# What the searches find

* The breadth-first search finds the ids that a start leads to, and no others
  (`mem_reachable_of_leads`, `leads_of_mem_reachable`).
* The nodes are done with by the depth-first search in an order in which every edge leads to one
  that was done with earlier (`Settled`), but for the edges that lead back. When there are none of
  these, there is no cycle (`acyclic_of_closingEdges`).
-/
namespace Campaign.Graph

open Relation

/-- Whether an edge leads from one id to another. -/
def Leads (edges : List Edge) (a b : String) : Prop := ∃ e ∈ edges, e.source = a ∧ e.target = b

variable {edges : List Edge} {starts within : List String}

theorem mem_leaving {e : Edge} {id : String} :
    e ∈ leaving edges id ↔ e ∈ edges ∧ e.source = id := by
  simp [leaving]

/-! ## Breadth first -/

theorem subset_explore (edges : List Edge) (visited queue : List String) :
    visited ⊆ explore edges visited queue ∧ queue ⊆ explore edges visited queue := by
  fun_induction explore edges visited queue with
  | case1 visited => exact ⟨List.Subset.refl _, List.nil_subset _⟩
  | case2 visited id queue hid ih =>
    exact ⟨ih.1, List.cons_subset.2 ⟨ih.1 hid, ih.2⟩⟩
  | case3 visited id queue hid next ih =>
    obtain ⟨hv, hq⟩ := ih
    refine ⟨fun x hx => hv (List.mem_cons_of_mem _ hx), List.cons_subset.2 ⟨?_, ?_⟩⟩
    · exact hv List.mem_cons_self
    · exact fun x hx => hq (List.mem_append_left _ hx)

/-- What is found is left by no edge when the edges of what was visited lead to what was visited or
is in the queue. -/
theorem explore_closed {visited queue : List String}
    (h : ∀ a ∈ visited, ∀ b, Leads edges a b → b ∈ visited ∨ b ∈ queue) {a b : String}
    (ha : a ∈ explore edges visited queue) (hab : Leads edges a b) :
    b ∈ explore edges visited queue := by
  fun_induction explore edges visited queue with
  | case1 visited => exact (h a ha b hab).resolve_right List.not_mem_nil
  | case2 visited id queue hid ih =>
    refine ih (fun x hx y hxy => ?_) ha
    rcases h x hx y hxy with hy | hy
    · exact .inl hy
    · rcases List.mem_cons.1 hy with rfl | hy
      · exact .inl hid
      · exact .inr hy
  | case3 visited id queue hid next ih =>
    refine ih (fun x hx y hxy => ?_) ha
    by_cases hy : y ∈ id :: visited
    · exact .inl hy
    refine .inr (List.mem_append.2 ?_)
    rcases List.mem_cons.1 hx with rfl | hx
    · obtain ⟨e, he, hsource, rfl⟩ := hxy
      refine .inr (List.mem_filter.2 ⟨?_, by simpa using hy⟩)
      exact List.mem_map.2 ⟨e, mem_leaving.2 ⟨he, hsource⟩, rfl⟩
    · simp only [List.mem_cons, not_or] at hy
      rcases h x hx y hxy with hv | hq
      · exact absurd hv hy.2
      · exact .inl ((List.mem_cons.1 hq).resolve_left hy.1)

theorem leads_of_mem_explore {visited queue : List String} {id : String}
    (h : id ∈ explore edges visited queue) :
    id ∈ visited ∨ ∃ start ∈ queue, ReflTransGen (Leads edges) start id := by
  fun_induction explore edges visited queue with
  | case1 visited => exact .inl h
  | case2 visited x queue hx ih =>
    refine (ih h).imp_right ?_
    rintro ⟨start, hs, hlead⟩
    exact ⟨start, List.mem_cons_of_mem _ hs, hlead⟩
  | case3 visited x queue hx next ih =>
    rcases ih h with hv | ⟨start, hs, hlead⟩
    · rcases List.mem_cons.1 hv with rfl | hv
      · exact .inr ⟨id, List.mem_cons_self, .refl⟩
      · exact .inl hv
    · refine .inr ?_
      rcases List.mem_append.1 hs with hs | hs
      · exact ⟨start, List.mem_cons_of_mem _ hs, hlead⟩
      · obtain ⟨e, he, rfl⟩ := List.mem_map.1 (List.mem_filter.1 hs).1
        obtain ⟨he, hsource⟩ := mem_leaving.1 he
        exact ⟨x, List.mem_cons_self, .head ⟨e, he, hsource, rfl⟩ hlead⟩

/-- What a start leads to is found. -/
theorem mem_reachable_of_leads {start id : String} (hs : start ∈ starts)
    (h : ReflTransGen (Leads edges) start id) : id ∈ reachable edges starts := by
  induction h with
  | refl => exact (subset_explore edges [] starts).2 hs
  | tail _ hlead ih =>
    refine explore_closed (fun a ha => ?_) ih hlead
    cases ha

/-- What is found is what a start leads to. -/
theorem leads_of_mem_reachable {id : String} (h : id ∈ reachable edges starts) :
    ∃ start ∈ starts, ReflTransGen (Leads edges) start id :=
  (leads_of_mem_explore h).resolve_left List.not_mem_nil

/-! ## Depth first -/

/-- Whether every edge from a node leads to one that was done with earlier; the last is first. -/
def Settled (edges : List Edge) : List String → Prop
  | [] => True
  | id :: done => id ∉ done ∧ (∀ x, Leads edges id x → x ∈ done) ∧ Settled edges done

theorem Settled.closed {done : List String} (h : Settled edges done) {a b : String}
    (ha : a ∈ done) (hab : Leads edges a b) : b ∈ done := by
  induction done with
  | nil => cases ha
  | cons id done ih =>
    obtain ⟨-, hid, h⟩ := h
    rcases List.mem_cons.1 ha with rfl | ha
    · exact List.mem_cons_of_mem _ (hid b hab)
    · exact List.mem_cons_of_mem _ (ih h ha)

theorem Settled.closed_trans {done : List String} (h : Settled edges done) {a b : String}
    (ha : a ∈ done) (hab : TransGen (Leads edges) a b) : b ∈ done := by
  induction hab with
  | single hlead => exact h.closed ha hlead
  | tail _ hlead ih => exact h.closed ih hlead

/-- There is no cycle among nodes that are done with. -/
theorem Settled.acyclic {done : List String} (h : Settled edges done) {id : String}
    (hid : id ∈ done) : ¬ TransGen (Leads edges) id id := by
  induction done with
  | nil => cases hid
  | cons x done ih =>
    obtain ⟨hx, hnext, h⟩ := h
    rcases List.mem_cons.1 hid with rfl | hid
    · intro hcycle
      obtain ⟨y, hlead, hback⟩ := TransGen.head'_iff.1 hcycle
      have hy := hnext y hlead
      rcases reflTransGen_iff_eq_or_transGen.1 hback with rfl | hback
      · exact hx hy
      · exact hx (h.closed_trans hy hback)
    · exact ih h hid

/-- Whether every edge from a node on the way is still to be followed or leads to a node that will
be done with before it. -/
def Pursued (edges : List Edge) (done : List String) : List Frame → Prop
  | [] => True
  | ⟨id, rest⟩ :: way =>
    (∀ e ∈ edges, e.source = id → e ∈ rest ∨ e.target ∈ done) ∧ Pursued edges (id :: done) way

/-- What holds of a search with regard to edges none of which led back. -/
structure Found.Sound (edges : List Edge) (found : Found) (way : List Frame) : Prop where
  settled : Settled edges found.finished
  pursued : Pursued edges found.finished way
  nodup : (onWay way ++ found.finished).Nodup

@[simp] theorem Found.finished_close (found : Found) (e : Edge) :
    (found.close e).finished = found.finished := by
  unfold Found.close
  split <;> rfl

theorem Found.mem_closing_close (found : Found) (e : Edge) : e.id ∈ (found.close e).closing := by
  unfold Found.close
  split
  · assumption
  · exact List.mem_append_right _ (List.mem_singleton_self _)

theorem Found.nodup_close (found : Found) (e : Edge) (h : found.closing.Nodup) :
    (found.close e).closing.Nodup := by
  unfold Found.close
  split
  · exact h
  · rename_i hnew
    refine List.nodup_append.2 ⟨h, by simp, ?_⟩
    rintro x hx y hy rfl
    exact hnew (List.mem_singleton.1 hy ▸ hx)

theorem Found.closing_subset_close (found : Found) (e : Edge) :
    found.closing ⊆ (found.close e).closing := by
  unfold Found.close
  split
  · exact List.Subset.refl _
  · exact List.subset_append_left _ _

theorem closing_subset_search (edges : List Edge) (found : Found) (way : List Frame) :
    found.closing ⊆ (search edges found way).closing := by
  fun_induction search edges found way with
  | case1 found => exact List.Subset.refl _
  | case2 found id way ih => exact ih
  | case3 found id edge rest way hway ih =>
    exact List.Subset.trans (found.closing_subset_close edge) ih
  | case4 found id edge rest way hway hdone ih => exact ih
  | case5 found id edge rest way hway hdone ih => exact ih

variable {found : Found} {way : List Frame} {id : String} {edge : Edge} {rest : List Edge}
variable {kept : List Edge}

/-- A node that all edges of which were followed is done with. -/
theorem Found.Sound.leave (h : found.Sound edges (⟨id, []⟩ :: way)) :
    Found.Sound edges { found with finished := id :: found.finished } way where
  settled := by
    have hid : id ∉ found.finished := fun hm =>
      (List.nodup_append.1 h.nodup).2.2 id List.mem_cons_self id hm rfl
    refine ⟨hid, ?_, h.settled⟩
    rintro x ⟨e, he, hsource, rfl⟩
    exact (h.pursued.1 e he hsource).resolve_left List.not_mem_nil
  pursued := h.pursued.2
  nodup := List.perm_middle.nodup_iff.2 h.nodup

/-- An edge may lead to a node that is done with. -/
theorem Found.Sound.pass (h : found.Sound edges (⟨id, edge :: rest⟩ :: way))
    (ht : edge.target ∈ found.finished) : found.Sound edges (⟨id, rest⟩ :: way) where
  settled := h.settled
  pursued := by
    refine ⟨fun e he hsource => ?_, h.pursued.2⟩
    rcases h.pursued.1 e he hsource with hm | hm
    · rcases List.mem_cons.1 hm with rfl | hm
      · exact .inr ht
      · exact .inl hm
    · exact .inr hm
  nodup := h.nodup

theorem Pursued.mono {done done' : List String} (h : Pursued edges done way)
    (hd : done ⊆ done') : Pursued edges done' way := by
  induction way generalizing done done' with
  | nil => trivial
  | cons frame way ih =>
    obtain ⟨hfirst, h⟩ := h
    exact ⟨fun e he hs => (hfirst e he hs).imp_right fun ht => hd ht,
      ih h (List.cons_subset_cons _ hd)⟩

/-- An edge that leads back is none of those that are kept. -/
theorem Found.Sound.skip (h : found.Sound kept (⟨id, edge :: rest⟩ :: way))
    (hedge : edge ∉ kept) : (found.close edge).Sound kept (⟨id, rest⟩ :: way) where
  settled := (found.finished_close edge).symm ▸ h.settled
  pursued := by
    rw [Found.finished_close]
    refine ⟨fun e he hsource => (h.pursued.1 e he hsource).imp_left fun hm => ?_, h.pursued.2⟩
    exact (List.mem_cons.1 hm).resolve_left fun heq => hedge (heq ▸ he)
  nodup := by
    rw [Found.finished_close]
    exact h.nodup

/-- An edge may lead to a node that was not met before. -/
theorem Found.Sound.enter (h : found.Sound kept (⟨id, edge :: rest⟩ :: way))
    (hkept : kept ⊆ edges) (hway : edge.target ∉ onWay (⟨id, rest⟩ :: way))
    (hdone : edge.target ∉ found.finished) :
    found.Sound kept (⟨edge.target, leaving edges edge.target⟩ :: ⟨id, rest⟩ :: way) where
  settled := h.settled
  pursued := by
    refine ⟨fun e he hsource => .inl (mem_leaving.2 ⟨hkept he, hsource⟩), fun e he hsource => ?_,
      h.pursued.2.mono (List.cons_subset_cons _ (List.subset_cons_self _ _))⟩
    rcases h.pursued.1 e he hsource with hm | hm
    · rcases List.mem_cons.1 hm with rfl | hm
      · exact .inr List.mem_cons_self
      · exact .inl hm
    · exact .inr (List.mem_cons_of_mem _ hm)
  nodup := by
    refine List.nodup_cons.2 ⟨fun hm => ?_, h.nodup⟩
    rcases List.mem_append.1 hm with hm | hm
    · exact hway hm
    · exact hdone hm

/-- A search settles what was on the way, for the edges that it does not note. -/
theorem search_settled (hkept : kept ⊆ edges) (h : found.Sound kept way)
    (hnone : ∀ e ∈ kept, e.id ∉ (search edges found way).closing) :
    Settled kept (search edges found way).finished ∧
      found.finished ⊆ (search edges found way).finished ∧
      onWay way ⊆ (search edges found way).finished := by
  fun_induction search edges found way with
  | case1 found => exact ⟨h.settled, List.Subset.refl _, List.nil_subset _⟩
  | case2 found id way ih =>
    obtain ⟨hs, hf, hw⟩ := ih h.leave hnone
    obtain ⟨hid, hf⟩ := List.cons_subset.1 hf
    exact ⟨hs, hf, List.cons_subset.2 ⟨hid, hw⟩⟩
  | case3 found id edge rest way hway ih =>
    -- an edge that leads back is noted, and what is noted stays
    have hedge : edge ∉ kept := fun hm =>
      hnone edge hm (closing_subset_search _ _ _ (found.mem_closing_close edge))
    obtain ⟨hs, hf, hw⟩ := ih (h.skip hedge) hnone
    rw [Found.finished_close] at hf
    exact ⟨hs, hf, hw⟩
  | case4 found id edge rest way hway hdone ih => exact ih (h.pass hdone) hnone
  | case5 found id edge rest way hway hdone ih =>
    obtain ⟨hs, hf, hw⟩ := ih (h.enter hkept hway hdone) hnone
    exact ⟨hs, hf, (List.cons_subset.1 hw).2⟩

/-! ## From every start -/

theorem Settled.nodup {done : List String} (h : Settled edges done) : done.Nodup := by
  induction done with
  | nil => exact List.nodup_nil
  | cons id done ih => exact List.nodup_cons.2 ⟨h.1, ih h.2.2⟩

theorem Found.Sound.start {id : String} (hkept : kept ⊆ edges) (h : Settled kept found.finished)
    (hid : id ∉ found.finished) : found.Sound kept [⟨id, leaving edges id⟩] where
  settled := h
  pursued := ⟨fun _ he hsource => .inl (mem_leaving.2 ⟨hkept he, hsource⟩), trivial⟩
  nodup := List.nodup_cons.2 ⟨hid, h.nodup⟩

/-- Searches from a start, unless it is done with. -/
def searchFrom (edges : List Edge) (found : Found) (start : String) : Found :=
  if start ∈ found.finished then found else search edges found [⟨start, leaving edges start⟩]

theorem closing_subset_searchFrom (edges : List Edge) (found : Found) (start : String) :
    found.closing ⊆ (searchFrom edges found start).closing := by
  unfold searchFrom
  split
  · exact List.Subset.refl _
  · exact closing_subset_search _ _ _

theorem closing_subset_foldl (edges : List Edge) (found : Found) (starts : List String) :
    found.closing ⊆ (starts.foldl (searchFrom edges) found).closing := by
  induction starts generalizing found with
  | nil => exact List.Subset.refl _
  | cons start starts ih =>
    exact List.Subset.trans (closing_subset_searchFrom edges found start) (ih _)

theorem searchFrom_settled {start : String} (hkept : kept ⊆ edges)
    (h : Settled kept found.finished)
    (hnone : ∀ e ∈ kept, e.id ∉ (searchFrom edges found start).closing) :
    Settled kept (searchFrom edges found start).finished ∧
      start :: found.finished ⊆ (searchFrom edges found start).finished := by
  unfold searchFrom at hnone ⊢
  split at hnone
  · rename_i hm
    rw [if_pos hm]
    exact ⟨h, List.cons_subset.2 ⟨hm, List.Subset.refl _⟩⟩
  · rename_i hm
    rw [if_neg hm]
    obtain ⟨hs, hf, hw⟩ := search_settled hkept (Found.Sound.start hkept h hm) hnone
    exact ⟨hs, List.cons_subset.2 ⟨hw List.mem_cons_self, hf⟩⟩

theorem foldl_settled (hkept : kept ⊆ edges) (h : Settled kept found.finished)
    (hnone : ∀ e ∈ kept, e.id ∉ (starts.foldl (searchFrom edges) found).closing) :
    Settled kept (starts.foldl (searchFrom edges) found).finished ∧
      starts ++ found.finished ⊆ (starts.foldl (searchFrom edges) found).finished := by
  induction starts generalizing found with
  | nil => exact ⟨h, List.Subset.refl _⟩
  | cons start starts ih =>
    rw [List.foldl_cons] at hnone ⊢
    have hfirst : ∀ e ∈ kept, e.id ∉ (searchFrom edges found start).closing := fun e he hm =>
      hnone e he (closing_subset_foldl _ _ _ hm)
    obtain ⟨hs, hf⟩ := searchFrom_settled hkept h hfirst
    obtain ⟨hs, hall⟩ := ih hs hnone
    obtain ⟨hstarts, hdone⟩ := List.append_subset.1 hall
    obtain ⟨hstart, hf⟩ := List.cons_subset.1 hf
    exact ⟨hs, List.cons_subset.2 ⟨hdone hstart,
      List.append_subset.2 ⟨hstarts, List.Subset.trans hf hdone⟩⟩⟩

/-- The edges that the search for cycles follows: loops at one node do not count. -/
def proper (edges : List Edge) (within : List String) : List Edge :=
  edges.filter fun e => e.source ≠ e.target ∧ e.source ∈ within

theorem closingEdges_eq (edges : List Edge) (starts within : List String) :
    closingEdges edges starts within =
      (starts.foldl (searchFrom (proper edges within)) ⟨[], []⟩).closing := rfl

/-- **Where no edge closes a cycle, there is none** among the nodes to which a start leads. -/
theorem acyclic_of_closingEdges (h : closingEdges edges starts within = []) {start id : String}
    (hs : start ∈ starts) (hlead : ReflTransGen (Leads (proper edges within)) start id) :
    ¬ TransGen (Leads (proper edges within)) id id := by
  rw [closingEdges_eq] at h
  have hnil : Settled (proper edges within) (Found.mk [] []).finished := trivial
  have hnone : ∀ e ∈ proper edges within,
      e.id ∉ (starts.foldl (searchFrom (proper edges within)) ⟨[], []⟩).closing := by
    intro e _
    rw [h]
    exact List.not_mem_nil
  obtain ⟨hsettled, hall⟩ := foldl_settled (List.Subset.refl _) hnil hnone
  have hstart := hall (List.mem_append_left _ hs)
  refine hsettled.acyclic ?_
  rcases reflTransGen_iff_eq_or_transGen.1 hlead with rfl | hlead
  · exact hstart
  · exact hsettled.closed_trans hstart hlead

/-! ## Edges that lead back -/

/-- Whether an edge lies on a cycle: its target leads back to its source. -/
def Closes (edges : List Edge) (e : Edge) : Prop :=
  e ∈ edges ∧ ReflTransGen (Leads edges) e.target e.source

/-- Whether every node on the way is led to by those that were entered before it, and what is still
to be followed leaves its node. -/
def Trodden (edges : List Edge) : List Frame → Prop
  | [] => True
  | ⟨id, rest⟩ :: way =>
    rest ⊆ leaving edges id ∧ (∀ x ∈ onWay way, ReflTransGen (Leads edges) x id) ∧
      Trodden edges way

/-- The way goes on with the edges that are left. -/
theorem Trodden.tail (h : Trodden edges (⟨id, edge :: rest⟩ :: way)) :
    Trodden edges (⟨id, rest⟩ :: way) :=
  ⟨(List.cons_subset.1 h.1).2, h.2⟩

/-- An edge that is followed leaves the node at which the way has come. -/
theorem Trodden.mem (h : Trodden edges (⟨id, edge :: rest⟩ :: way)) :
    edge ∈ edges ∧ edge.source = id :=
  mem_leaving.1 (List.cons_subset.1 h.1).1

/-- All nodes on the way lead to the last of them. -/
theorem Trodden.leads (h : Trodden edges (⟨id, rest⟩ :: way)) {x : String}
    (hx : x ∈ onWay (⟨id, rest⟩ :: way)) : ReflTransGen (Leads edges) x id := by
  rcases List.mem_cons.1 hx with rfl | hx
  · exact .refl
  · exact h.2.1 x hx

theorem Trodden.enter (h : Trodden edges (⟨id, edge :: rest⟩ :: way)) :
    Trodden edges (⟨edge.target, leaving edges edge.target⟩ :: ⟨id, rest⟩ :: way) := by
  obtain ⟨he, hsource⟩ := h.mem
  refine ⟨List.Subset.refl _, fun x hx => ?_, h.tail⟩
  exact (h.tail.leads hx).tail ⟨edge, he, hsource, rfl⟩

/-- An edge that leads back to a node on the way closes a cycle. -/
theorem Trodden.closes (h : Trodden edges (⟨id, edge :: rest⟩ :: way))
    (hway : edge.target ∈ onWay (⟨id, rest⟩ :: way)) : Closes edges edge := by
  obtain ⟨he, hsource⟩ := h.mem
  exact ⟨he, hsource ▸ h.tail.leads hway⟩

theorem Found.mem_close {found : Found} {edge : Edge} {x : String}
    (h : x ∈ (found.close edge).closing) : x ∈ found.closing ∨ x = edge.id := by
  unfold Found.close at h
  split at h
  · exact .inl h
  · exact (List.mem_append.1 h).imp_right List.mem_singleton.1

theorem closes_of_mem_search {x : String} (h : Trodden edges way)
    (hx : x ∈ (search edges found way).closing) :
    x ∈ found.closing ∨ ∃ e, Closes edges e ∧ e.id = x := by
  fun_induction search edges found way with
  | case1 found => exact .inl hx
  | case2 found id way ih => exact ih h.2.2 hx
  | case3 found id edge rest way hway ih =>
    rcases ih h.tail hx with hx | hx
    · refine (Found.mem_close hx).imp_right ?_
      rintro rfl
      exact ⟨edge, h.closes hway, rfl⟩
    · exact .inr hx
  | case4 found id edge rest way hway hdone ih => exact ih h.tail hx
  | case5 found id edge rest way hway hdone ih => exact ih h.enter hx

theorem closes_of_mem_searchFrom {start x : String}
    (hx : x ∈ (searchFrom edges found start).closing) :
    x ∈ found.closing ∨ ∃ e, Closes edges e ∧ e.id = x := by
  unfold searchFrom at hx
  split at hx
  · exact .inl hx
  · refine closes_of_mem_search ?_ hx
    exact ⟨List.Subset.refl _, List.forall_mem_nil _, trivial⟩

theorem closes_of_mem_foldl {x : String}
    (hx : x ∈ (starts.foldl (searchFrom edges) found).closing) :
    x ∈ found.closing ∨ ∃ e, Closes edges e ∧ e.id = x := by
  induction starts generalizing found with
  | nil => exact .inl hx
  | cons start starts ih =>
    rcases ih hx with hx | hx
    · exact closes_of_mem_searchFrom hx
    · exact .inr hx

/-- **Every edge that is found lies on a cycle.** -/
theorem closes_of_mem_closingEdges {x : String} (hx : x ∈ closingEdges edges starts within) :
    ∃ e, Closes (proper edges within) e ∧ e.id = x := by
  rw [closingEdges_eq] at hx
  exact (closes_of_mem_foldl hx).resolve_left List.not_mem_nil

/-! ## Ids that occur again -/

variable {id : String} {seen found ids : List String}

/-- An id is collected when it was, when it was seen and comes, or when it comes twice. -/
theorem mem_repeated_iff : id ∈ repeated seen found ids ↔
    id ∈ found ∨ (id ∈ seen ∧ id ∈ ids) ∨ 2 ≤ ids.count id := by
  induction ids generalizing seen found with
  | nil => simp [repeated]
  | cons x ids ih =>
    have hcount : 1 ≤ ids.count id ↔ id ∈ ids := List.one_le_count_iff
    rw [repeated, ih, List.count_cons]
    by_cases hx : x = id
    · subst hx
      have htwo : 2 ≤ ids.count x + 1 ↔ x ∈ ids := by rw [← hcount]; omega
      have hmore : 2 ≤ ids.count x → x ∈ ids := fun h => hcount.1 (by omega)
      simp only [beq_self_eq_true, if_true, htwo, List.mem_cons, true_or, true_and, and_true]
      split
      · rename_i hnew
        simp [hnew.1]
      · rename_i hold
        grind
    · have hfound : id ∈ (if x ∈ seen ∧ x ∉ found then found ++ [x] else found) ↔ id ∈ found := by
        split <;> simp [Ne.symm hx]
      have hother : (x == id) = false := beq_false_of_ne hx
      simp only [hfound, hother, List.mem_cons, Ne.symm hx, false_or, Bool.false_eq_true, if_false,
        Nat.add_zero]

theorem nodup_repeated (h : found.Nodup) : (repeated seen found ids).Nodup := by
  induction ids generalizing seen found with
  | nil => exact h
  | cons id ids ih =>
    refine ih ?_
    split
    · rename_i hnew
      exact List.concat_eq_append ▸ h.concat hnew.2
    · exact h

/-- The ids that occur again are those that occur twice, -/
theorem mem_duplicates_iff : id ∈ duplicates ids ↔ 2 ≤ ids.count id := by
  simp [duplicates, mem_repeated_iff]

/-- each once. -/
theorem nodup_duplicates (ids : List String) : (duplicates ids).Nodup :=
  nodup_repeated List.nodup_nil

/-- No id occurs again just when all are distinct. -/
theorem duplicates_eq_nil_iff : duplicates ids = [] ↔ ids.Nodup := by
  simp only [List.eq_nil_iff_forall_not_mem, mem_duplicates_iff, List.nodup_iff_count_le_one]
  refine forall_congr' fun id => ?_
  omega

theorem nodup_of_duplicates (h : duplicates ids = []) : ids.Nodup := duplicates_eq_nil_iff.1 h

end Campaign.Graph
