import Campaign.Proofs.Sequences
import Campaign.Proofs.Validation.Rearranged
import Mathlib.Data.List.Induction
/-!
# Ids that occur again, in their order

The place of an id in a list is told by how often the id stood before (`Occurs`): an id occurs first
after it stood nowhere, and again after it stood once.

* The ids that occur again are collected in the order in which they do so
  (`pairwise_duplicates`), as they are found one id after the other (`duplicates_concat`).
* This is the order in which they occur first unless they are nested (`Nested`): one of them occurs
  before another that occurs again before it does (`pairwise_first_iff`).
-/
namespace Campaign.Graph

variable {seen found ids : List String} {id a b x : String} {k m n : Nat}

/-- Whether an id is at a place of a list, having been at so many places before. -/
def Occurs (ids : List String) (k : Nat) (id : String) (n : Nat) : Prop :=
  ids[n]? = some id ∧ (ids.take n).count id = k

instance : Decidable (Occurs ids k id n) := inferInstanceAs (Decidable (_ ∧ _))

/-- Whether an id comes, for the first time or again, before another one does. -/
def Before (ids : List String) (k : Nat) (a b : String) : Prop :=
  ∃ m n, Occurs ids k a m ∧ Occurs ids k b n ∧ m < n

/-- Whether an id occurs first before another one does, and again after that one does. -/
def Nested (ids : List String) : Prop := ∃ a b, Before ids 0 a b ∧ Before ids 1 b a

/-! ## One id more -/

theorem repeated_concat (seen found ids : List String) (x : String) :
    repeated seen found (ids ++ [x]) =
      if (x ∈ seen ∨ x ∈ ids) ∧ x ∉ repeated seen found ids then repeated seen found ids ++ [x]
      else repeated seen found ids := by
  induction ids generalizing seen found with
  | nil => simp [repeated]
  | cons id ids ih =>
    have hseen : x ∈ id :: seen ∨ x ∈ ids ↔ x ∈ seen ∨ x ∈ id :: ids := by
      simp only [List.mem_cons]
      tauto
    rw [List.cons_append, repeated, ih]
    exact if_congr (and_congr_left' hseen) rfl rfl

theorem duplicates_concat (ids : List String) (x : String) : duplicates (ids ++ [x]) =
    if ids.count x = 1 then duplicates ids ++ [x] else duplicates ids := by
  have hnew : (x ∈ [] ∨ x ∈ ids) ∧ x ∉ duplicates ids ↔ ids.count x = 1 := by
    rw [mem_duplicates_iff, or_iff_right List.not_mem_nil, ← List.one_le_count_iff]
    omega
  rw [duplicates, repeated_concat]
  exact if_congr hnew rfl rfl

theorem occurs_concat : Occurs (ids ++ [x]) k id n ↔
    Occurs ids k id n ∨ (id = x ∧ n = ids.length ∧ ids.count id = k) := by
  rcases Nat.lt_trichotomy n ids.length with hn | rfl | hn
  · simp [Occurs, List.getElem?_append_left hn, List.take_append_of_le_length (Nat.le_of_lt hn),
      Nat.ne_of_lt hn]
  · simp [Occurs, eq_comm]
  · have hlength : (ids ++ [x]).length ≤ n := by
      simp only [List.length_append, List.length_singleton]
      omega
    simp [Occurs, List.getElem?_eq_none hlength, List.getElem?_eq_none (Nat.le_of_lt hn),
      Nat.ne_of_gt hn]

theorem Occurs.lt_length (h : Occurs ids k id n) : n < ids.length :=
  (List.getElem?_eq_some_iff.1 h.1).1

theorem Occurs.concat (h : Occurs ids k id n) (x : String) : Occurs (ids ++ [x]) k id n :=
  occurs_concat.2 (.inl h)

theorem Before.concat (h : Before ids k a b) (x : String) : Before (ids ++ [x]) k a b := by
  obtain ⟨m, n, hm, hn, hlt⟩ := h
  exact ⟨m, n, hm.concat x, hn.concat x, hlt⟩

/-! ## Places -/

/-- An id that is in a list so often has a place for each time. -/
theorem exists_occurs_iff : (∃ n, Occurs ids k id n) ↔ k < ids.count id := by
  induction ids using List.reverseRecOn with
  | nil => simp [Occurs]
  | append_singleton ids x ih =>
    simp only [occurs_concat, exists_or, ih, List.count_append, List.count_singleton]
    by_cases hx : x = id
    · subst hx
      simp
      omega
    · simp [hx, Ne.symm hx]

/-- An id has one place for each time. -/
theorem Occurs.unique (hm : Occurs ids k id m) (hn : Occurs ids k id n) : m = n := by
  induction ids using List.reverseRecOn with
  | nil => exact absurd hm.lt_length (Nat.not_lt_zero m)
  | append_singleton ids x ih =>
    rcases occurs_concat.1 hm with hm' | ⟨-, rfl, hm'⟩ <;>
      rcases occurs_concat.1 hn with hn' | ⟨-, rfl, hn'⟩
    · exact ih hm' hn'
    · have := exists_occurs_iff.1 ⟨m, hm'⟩
      omega
    · have := exists_occurs_iff.1 ⟨n, hn'⟩
      omega
    · rfl

/-- One id is at a place. -/
theorem Occurs.eq {l : Nat} (ha : Occurs ids k a n) (hb : Occurs ids l b n) : a = b :=
  Option.some.inj (ha.1.symm.trans hb.1)

theorem Before.asymm (h : Before ids k a b) : ¬ Before ids k b a := by
  rintro ⟨n', m', hb, ha, hlt'⟩
  obtain ⟨m, n, ha', hb', hlt⟩ := h
  have hm := ha.unique ha'
  have hn := hb.unique hb'
  omega

theorem Before.ne (h : Before ids k a b) : a ≠ b := by
  rintro rfl
  exact h.asymm h

/-- Ids of which one comes again before the other are collected. -/
theorem Before.mem_duplicates (h : Before ids 1 a b) :
    a ∈ duplicates ids ∧ b ∈ duplicates ids := by
  obtain ⟨m, n, ha, hb, -⟩ := h
  exact ⟨mem_duplicates_iff.2 (exists_occurs_iff.1 ⟨m, ha⟩),
    mem_duplicates_iff.2 (exists_occurs_iff.1 ⟨n, hb⟩)⟩

/-- Of two ids that come so often, one comes before the other. -/
theorem before_or_before (ha : k < ids.count a) (hb : k < ids.count b) (hne : a ≠ b) :
    Before ids k a b ∨ Before ids k b a := by
  obtain ⟨m, hm⟩ := exists_occurs_iff.2 ha
  obtain ⟨n, hn⟩ := exists_occurs_iff.2 hb
  rcases Nat.lt_trichotomy m n with hlt | rfl | hlt
  · exact .inl ⟨m, n, hm, hn, hlt⟩
  · exact absurd (hm.eq hn) hne
  · exact .inr ⟨n, m, hn, hm, hlt⟩

/-! ## The order of what is collected -/

/-- **Ids are collected in the order in which they occur again.** -/
theorem pairwise_duplicates (ids : List String) : (duplicates ids).Pairwise (Before ids 1) := by
  induction ids using List.reverseRecOn with
  | nil => exact .nil
  | append_singleton ids x ih =>
    have hkept : (duplicates ids).Pairwise (Before (ids ++ [x]) 1) := ih.imp fun h => h.concat x
    rw [duplicates_concat]
    split
    · rename_i hx
      refine List.pairwise_append.2 ⟨hkept, List.pairwise_singleton _ _, fun a ha b hb => ?_⟩
      obtain rfl := List.mem_singleton.1 hb
      obtain ⟨n, hn⟩ := exists_occurs_iff.2 (mem_duplicates_iff.1 ha)
      exact ⟨n, ids.length, hn.concat b, occurs_concat.2 (.inr ⟨rfl, rfl, hx⟩), hn.lt_length⟩
    · exact hkept

/-- **That is the order in which they occur first just if none of them are nested.** -/
theorem pairwise_first_iff : (duplicates ids).Pairwise (Before ids 0) ↔ ¬ Nested ids := by
  have hagain := pairwise_duplicates ids
  constructor
  · rintro hfirst ⟨a, b, hab, hba⟩
    obtain ⟨hb, ha⟩ := hba.mem_duplicates
    -- both orders are that of the list, and so they are the same for these two
    rcases pairwise_total (hfirst.and hagain) ha hb hab.ne with ⟨-, h⟩ | ⟨h, -⟩
    · exact hba.asymm h
    · exact hab.asymm h
  · intro hnone
    refine (hagain.and (nodup_duplicates ids)).imp_of_mem ?_
    rintro a b ha hb ⟨hab, hne⟩
    have ha := mem_duplicates_iff.1 ha
    have hb := mem_duplicates_iff.1 hb
    refine (before_or_before (by omega) (by omega) hne).resolve_right fun hba => ?_
    exact hnone ⟨b, a, hba, hab⟩

/-- Whether some ids are those that occur more than once in a list, each once, in the order in which
they occur again, which is that in which they occur first unless they are nested. -/
structure Repeats (ids named : List String) : Prop where
  mem_iff : ∀ id, id ∈ named ↔ 2 ≤ ids.count id
  nodup : named.Nodup
  again : named.Pairwise (Before ids 1)
  first_iff : named.Pairwise (Before ids 0) ↔ ¬ Nested ids

/-- **The ids that occur again are collected each once, in the order in which they do so**, and the
findings of an examination name them as they are collected. -/
theorem duplicates_in_order (ids : List String) :
    Repeats ids (duplicates ids) ∧
    ∀ f : Flow, ∀ x ∈ f.examine.findings,
      (x.code = .duplicateNodeIds → f.nodes.map (·.id) = ids →
        x.Names "Duplicate node IDs found: " (duplicates ids)) ∧
      (x.code = .duplicateEdgeIds → f.edges.map (·.id) = ids →
        x.Names "Duplicate edge IDs found: " (duplicates ids)) := by
  refine ⟨⟨fun _ => mem_duplicates_iff, nodup_duplicates ids, pairwise_duplicates ids,
    pairwise_first_iff⟩, fun f x hx => ⟨?_, ?_⟩⟩
  · rintro hcode rfl
    exact Flow.names_nodeIds hx hcode
  · rintro hcode rfl
    exact Flow.names_edgeIds hx hcode

/-- A flow with two ids of which one stands between the places of the other. -/
def bracketed : Flow :=
  { id := "f", name := "Bracketed", active := false
    nodes := [⟨"a", "Order", .trigger, []⟩, ⟨"b", "Thanks", .finish, []⟩,
      ⟨"b", "Thanks", .finish, []⟩, ⟨"a", "Order", .trigger, []⟩]
    edges := [⟨"1", "a", "b", none, none⟩], createdAt := .utc 0, updatedAt := .utc 0 }

/-- The id that occurs again first is named first. -/
theorem bracketed_in_order : ∃ x ∈ bracketed.examine.findings, x.code = .duplicateNodeIds ∧
    x.Names "Duplicate node IDs found: " ["b", "a"] ∧
    Repeats ["a", "b", "b", "a"] ["b", "a"] := by
  obtain ⟨hrepeats, hnames⟩ := duplicates_in_order ["a", "b", "b", "a"]
  have hfound : ∃ x ∈ bracketed.examine.findings, x.code = .duplicateNodeIds := by decide +kernel
  obtain ⟨x, hx, hcode⟩ := hfound
  exact ⟨x, hx, hcode, (hnames bracketed x hx).1 hcode rfl, hrepeats⟩

/-- **Nested ids are not collected in the order in which they occur first.** -/
theorem nested_out_of_order : duplicates ["a", "b", "b", "a"] = ["b", "a"] ∧
    ¬ (duplicates ["a", "b", "b", "a"]).Pairwise (Before ["a", "b", "b", "a"] 0) := by
  have hnested : Nested ["a", "b", "b", "a"] :=
    ⟨"a", "b", ⟨0, 1, by decide, by decide, by decide⟩, ⟨2, 3, by decide, by decide, by decide⟩⟩
  exact ⟨by decide, fun hfirst => pairwise_first_iff.1 hfirst hnested⟩

end Campaign.Graph
