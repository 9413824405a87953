import Campaign.Flow.Store
import Campaign.Proofs.Entries
import Campaign.Proofs.Sequences
import Mathlib.Data.List.Induction
/-!
# The store of flows over its history

What a store holds is told by the changes that were made, without a word about how it is kept:

* `Present` says which ids there are, and `Began` with which change each of them came in;
* `Written` says which flow is the last that was written under its id.

A store holds just what was written (`get?_follow`), and it has its flows in the order in which
their ids came in (`ordered_follow`).  `refines` puts this together.
-/
namespace Campaign.FlowStore

/-! ## Look-ups -/

/-- Every flow is stored under its own id. -/
def Named (s : FlowStore) : Prop := ∀ id f, s.get? id = some f → f.id = id

theorem get?_create (s : FlowStore) (f : Flow) (id : String) :
    (s.create f).get? id = if id = f.id then some f else s.get? id :=
  OrderedMap.get?_put s.flows f.id id f

theorem get?_delete (s : FlowStore) (deleted id : String) :
    (s.delete deleted).1.get? id = if id = deleted then none else s.get? id :=
  OrderedMap.get?_remove s.flows deleted id

theorem Named.create {s : FlowStore} (h : s.Named) (f : Flow) : (s.create f).Named := by
  intro id g hg
  rw [get?_create] at hg
  split at hg
  · rename_i hid
    rw [hid, Option.some.inj hg]
  · exact h id g hg

theorem Named.delete {s : FlowStore} (h : s.Named) (deleted : String) :
    (s.delete deleted).1.Named := by
  intro id g hg
  rw [get?_delete] at hg
  split at hg
  · cases hg
  · exact h id g hg

/-- Only a flow that is there can be updated. -/
theorem update_eq (s : FlowStore) (f : Flow) :
    s.update f = if (s.get? f.id).isSome then .ok (s.create f) else .error ⟨f.id⟩ := rfl

/-! ## Histories -/

/-- A change of a store. -/
inductive Change where
  | create (f : Flow)
  | update (f : Flow)
  | delete (id : String)

namespace Change

/-- The flow that a change brings along. -/
def flow? : Change → Option Flow
  | create f | update f => some f
  | delete _ => none

/-- The id that a change is about. -/
def id : Change → String
  | create f | update f => f.id
  | delete id => id

theorem id_of_flow? {c : Change} {f : Flow} (h : c.flow? = some f) : c.id = f.id := by
  cases c with
  | create g | update g => rw [← Option.some.inj h, id]
  | delete => cases h

/-- Whether a change creates a flow of an id. -/
def Creates (c : Change) (id : String) : Prop := ∃ f, c = create f ∧ f.id = id

end Change

/-- The store after a change; an update that is refused changes nothing. -/
def take (s : FlowStore) : Change → FlowStore
  | .create f => s.create f
  | .update f => match s.update f with
    | .ok s' => s'
    | .error _ => s
  | .delete id => (s.delete id).1

/-- The store after a number of changes, from the first to the last. -/
def follow (changes : List Change) : FlowStore := changes.foldl take {}

/-- Whether there is a flow of an id after some changes: one was created, and none of that id was
deleted later. -/
def Present (changes : List Change) (id : String) : Prop :=
  ∃ before c after, changes = before ++ c :: after ∧ c.Creates id ∧ .delete id ∉ after

/-- Whether the flow of an id came in with the change of a number: that change created it when there
was none, and it was not deleted later. -/
def Began (changes : List Change) (id : String) (n : Nat) : Prop :=
  ∃ before c after, changes = before ++ c :: after ∧ c.Creates id ∧ .delete id ∉ after ∧
    ¬ Present before id ∧ before.length = n

/-- Whether an id came in before another. -/
def Before (changes : List Change) (a b : String) : Prop :=
  ∃ m n, Began changes a m ∧ Began changes b n ∧ m < n

/-- Whether a flow is what was written last under its id: it was created, or it was brought by an
update when there was a flow of that id, and no change since then was about that id. -/
def Written (changes : List Change) (f : Flow) : Prop :=
  ∃ before c after, changes = before ++ c :: after ∧ c.flow? = some f ∧
    (c = .create f ∨ Present before f.id) ∧ ∀ later ∈ after, later.id ≠ f.id

variable {s : FlowStore} {changes : List Change} {c : Change} {id a b : String} {f g : Flow}
variable {n : Nat}

/-! ## One change more -/

theorem follow_concat (changes : List Change) (c : Change) :
    follow (changes ++ [c]) = (follow changes).take c := by
  simp [follow, List.foldl_append]

theorem present_concat : Present (changes ++ [c]) id ↔
    c.Creates id ∨ Present changes id ∧ c ≠ .delete id := by
  simp only [Present, concat_eq_iff]
  constructor
  · rintro ⟨before, c', after, ⟨rfl, rfl, rfl⟩ | ⟨rest, rfl, rfl⟩, hc, hdelete⟩
    · exact .inl hc
    · simp only [List.mem_append, List.mem_singleton, not_or] at hdelete
      exact .inr ⟨⟨before, c', rest, rfl, hc, hdelete.1⟩, Ne.symm hdelete.2⟩
  · rintro (hc | ⟨⟨before, c', after, rfl, hc, hdelete⟩, hne⟩)
    · exact ⟨changes, c, [], .inl ⟨rfl, rfl, rfl⟩, hc, List.not_mem_nil⟩
    · refine ⟨before, c', after ++ [c], .inr ⟨after, rfl, rfl⟩, hc, ?_⟩
      simp only [List.mem_append, List.mem_singleton, not_or]
      exact ⟨hdelete, Ne.symm hne⟩

theorem began_concat : Began (changes ++ [c]) id n ↔
    (Began changes id n ∧ c ≠ .delete id) ∨
      (c.Creates id ∧ ¬ Present changes id ∧ changes.length = n) := by
  simp only [Began, concat_eq_iff]
  constructor
  · rintro ⟨before, c', after, ⟨rfl, rfl, rfl⟩ | ⟨rest, rfl, rfl⟩, hc, hdelete, hnew, hn⟩
    · exact .inr ⟨hc, hnew, hn⟩
    · simp only [List.mem_append, List.mem_singleton, not_or] at hdelete
      exact .inl ⟨⟨before, c', rest, rfl, hc, hdelete.1, hnew, hn⟩, Ne.symm hdelete.2⟩
  · rintro (⟨⟨before, c', after, rfl, hc, hdelete, hnew, hn⟩, hne⟩ | ⟨hc, hnew, hn⟩)
    · refine ⟨before, c', after ++ [c], .inr ⟨after, rfl, rfl⟩, hc, ?_, hnew, hn⟩
      simp only [List.mem_append, List.mem_singleton, not_or]
      exact ⟨hdelete, Ne.symm hne⟩
    · exact ⟨changes, c, [], .inl ⟨rfl, rfl, rfl⟩, hc, List.not_mem_nil, hnew, hn⟩

theorem written_concat : Written (changes ++ [c]) f ↔
    (c.flow? = some f ∧ (c = .create f ∨ Present changes f.id)) ∨
      (Written changes f ∧ c.id ≠ f.id) := by
  simp only [Written, concat_eq_iff]
  constructor
  · rintro ⟨before, c', after, ⟨rfl, rfl, rfl⟩ | ⟨rest, rfl, rfl⟩, hc, hknown, hlater⟩
    · exact .inl ⟨hc, hknown⟩
    · simp only [List.mem_append, List.mem_singleton] at hlater
      exact .inr ⟨⟨before, c', rest, rfl, hc, hknown, fun x hx => hlater x (.inl hx)⟩,
        hlater c (.inr rfl)⟩
  · rintro (⟨hc, hknown⟩ | ⟨⟨before, c', after, rfl, hc, hknown, hlater⟩, hne⟩)
    · exact ⟨changes, c, [], .inl ⟨rfl, rfl, rfl⟩, hc, hknown, by simp⟩
    · refine ⟨before, c', after ++ [c], .inr ⟨after, rfl, rfl⟩, hc, hknown, fun x hx => ?_⟩
      rcases List.mem_append.1 hx with hx | hx
      · exact hlater x hx
      · rw [List.mem_singleton.1 hx]
        exact hne

theorem Began.lt_length (h : Began changes id n) : n < changes.length := by
  obtain ⟨before, c, after, rfl, -, -, -, rfl⟩ := h
  simp

/-- The flow of every id that there is came in with some change. -/
theorem exists_began_iff : (∃ n, Began changes id n) ↔ Present changes id := by
  constructor
  · rintro ⟨n, before, c, after, heq, hc, hdelete, -, -⟩
    exact ⟨before, c, after, heq, hc, hdelete⟩
  · intro h
    induction changes using List.reverseRecOn with
    | nil =>
      obtain ⟨before, c, after, hnil, -⟩ := h
      simp at hnil
    | append_singleton changes c ih =>
      by_cases hold : Present changes id ∧ c ≠ .delete id
      · obtain ⟨n, hn⟩ := ih hold.1
        exact ⟨n, began_concat.2 (.inl ⟨hn, hold.2⟩)⟩
      · have hc : c.Creates id := (present_concat.1 h).resolve_right hold
        have hnew : ¬ Present changes id := by
          rintro hpresent
          obtain ⟨f, rfl, -⟩ := hc
          exact hold ⟨hpresent, by simp⟩
        exact ⟨changes.length, began_concat.2 (.inr ⟨hc, hnew, rfl⟩)⟩

theorem Before.concat (h : Before changes a b) (ha : c ≠ .delete a) (hb : c ≠ .delete b) :
    Before (changes ++ [c]) a b := by
  obtain ⟨m, n, hm, hn, hlt⟩ := h
  exact ⟨m, n, began_concat.2 (.inl ⟨hm, ha⟩), began_concat.2 (.inl ⟨hn, hb⟩), hlt⟩

/-! ## What a store holds -/

/-- A change leaves the flows of other ids alone. -/
theorem get?_take_of_ne (s : FlowStore) (h : id ≠ c.id) : (s.take c).get? id = s.get? id := by
  cases c with
  | create f => exact (get?_create s f id).trans (if_neg h)
  | update f =>
    rw [take, update_eq]
    by_cases hf : (s.get? f.id).isSome
    · rw [if_pos hf]
      exact (get?_create s f id).trans (if_neg h)
    · rw [if_neg hf]
  | delete deleted => exact (get?_delete s deleted id).trans (if_neg h)

/-- What becomes of the flow of the id that a change is about. -/
theorem get?_take_self (s : FlowStore) (c : Change) : (s.take c).get? c.id =
    match c with
    | .create f => some f
    | .update f => (s.get? f.id).map fun _ => f
    | .delete _ => none := by
  cases c with
  | create f => exact (get?_create s f f.id).trans (if_pos rfl)
  | update f =>
    cases hf : s.get? f.id <;> simp [take, update_eq, Change.id, hf, get?_create]
  | delete deleted => exact (get?_delete s deleted deleted).trans (if_pos rfl)

theorem creates_iff : c.Creates id ↔ c.id = id ∧ ∃ f, c = .create f := by
  constructor
  · rintro ⟨f, rfl, hid⟩
    exact ⟨hid, f, rfl⟩
  · rintro ⟨hid, f, rfl⟩
    exact ⟨f, rfl, hid⟩

/-- There is a flow of just the ids that are present. -/
theorem isSome_get?_follow (changes : List Change) (id : String) :
    ((follow changes).get? id).isSome ↔ Present changes id := by
  induction changes using List.reverseRecOn with
  | nil =>
    refine iff_of_false Bool.false_ne_true ?_
    rintro ⟨before, c, after, hnil, -⟩
    simp at hnil
  | append_singleton changes c ih =>
    rw [follow_concat, present_concat, ← ih, creates_iff]
    by_cases hid : id = c.id
    · subst hid
      rw [get?_take_self]
      cases c <;> simp [Change.id]
    · have hdelete : c ≠ .delete id := by
        rintro rfl
        exact hid rfl
      rw [get?_take_of_ne _ hid]
      simp [Ne.symm hid, hdelete]

/-- **A look-up finds the flow that was written last.** -/
theorem get?_follow (changes : List Change) (id : String) (f : Flow) :
    (follow changes).get? id = some f ↔ f.id = id ∧ Written changes f := by
  induction changes using List.reverseRecOn with
  | nil =>
    refine iff_of_false (fun h => by cases h) ?_
    rintro ⟨-, before, c, after, hnil, -⟩
    simp at hnil
  | append_singleton changes c ih =>
    rw [follow_concat, written_concat]
    by_cases hid : id = c.id
    · subst hid
      rw [get?_take_self]
      cases c with
      | create g =>
        constructor
        · rintro ⟨⟩
          exact ⟨rfl, .inl ⟨rfl, .inl rfl⟩⟩
        · rintro ⟨hid, ⟨hg, -⟩ | ⟨-, hne⟩⟩
          · exact hg
          · exact absurd hid.symm hne
      | update g =>
        constructor
        · intro h
          obtain ⟨old, hold, rfl⟩ := Option.map_eq_some_iff.1 h
          have hpresent : Present changes g.id := by
            rw [← isSome_get?_follow, hold]
            rfl
          exact ⟨rfl, .inl ⟨rfl, .inr hpresent⟩⟩
        · rintro ⟨hid, ⟨hg, hc | hpresent⟩ | ⟨-, hne⟩⟩
          · cases hc
          · obtain rfl := Option.some.inj hg
            obtain ⟨old, hold⟩ := Option.isSome_iff_exists.1 ((isSome_get?_follow _ _).2 hpresent)
            exact Option.map_eq_some_iff.2 ⟨old, hold, rfl⟩
          · exact absurd hid.symm hne
      | delete deleted =>
        refine iff_of_false (fun h => by cases h) ?_
        rintro ⟨hid, ⟨hnone, -⟩ | ⟨-, hne⟩⟩
        · cases hnone
        · exact hne hid.symm
    · rw [get?_take_of_ne _ hid, ih]
      constructor
      · rintro ⟨rfl, hf⟩
        exact ⟨rfl, .inr ⟨hf, Ne.symm hid⟩⟩
      · rintro ⟨rfl, ⟨hflow, -⟩ | ⟨hf, -⟩⟩
        · exact absurd (c.id_of_flow? hflow).symm hid
        · exact ⟨rfl, hf⟩

/-! ## The order of a store -/

theorem keys_create_of_some (h : (s.get? f.id).isSome) :
    (s.create f).flows.keys = s.flows.keys := by
  have hmem : f.id ∈ s.flows.keys := OrderedMap.mem_keys.2 h
  exact (Entries.keys_put f.id f s.flows.entries).trans (if_pos hmem)

theorem mem_keys_follow : id ∈ (follow changes).flows.keys ↔ ∃ n, Began changes id n := by
  rw [exists_began_iff, ← isSome_get?_follow]
  exact OrderedMap.mem_keys

/-- What a change that is no deletion leaves in order when the store keeps its ids. -/
theorem pairwise_before_concat {keys : List String} (h : keys.Pairwise (Before changes))
    (hc : ∀ id ∈ keys, c ≠ .delete id) : keys.Pairwise (Before (changes ++ [c])) :=
  h.imp_of_mem fun ha hb hbefore => hbefore.concat (hc _ ha) (hc _ hb)

/-- **A store has its flows in the order in which their ids came in.** -/
theorem ordered_follow (changes : List Change) :
    (follow changes).flows.keys.Pairwise (Before changes) := by
  induction changes using List.reverseRecOn with
  | nil => exact .nil
  | append_singleton changes c ih =>
    rw [follow_concat]
    cases c with
    | create f =>
      have hkept := pairwise_before_concat (c := .create f) ih fun _ _ => by simp
      by_cases hf : ((follow changes).get? f.id).isSome
      · rw [take, keys_create_of_some hf]
        exact hkept
      · -- the id is new, and all others came in earlier
        have hnone : (follow changes).flows.get? f.id = none := Option.not_isSome_iff_eq_none.1 hf
        have hnew : ¬ Present changes f.id := mt (isSome_get?_follow changes f.id).2 hf
        rw [take, create, OrderedMap.keys_put_of_none hnone]
        refine List.pairwise_append.2 ⟨hkept, List.pairwise_singleton _ _, fun a ha b hb => ?_⟩
        rw [List.mem_singleton.1 hb]
        obtain ⟨m, hm⟩ := mem_keys_follow.1 ha
        exact ⟨m, changes.length, began_concat.2 (.inl ⟨hm, by simp⟩),
          began_concat.2 (.inr ⟨⟨f, rfl, rfl⟩, hnew, rfl⟩), hm.lt_length⟩
    | update f =>
      have hkept := pairwise_before_concat (c := .update f) ih fun _ _ => by simp
      rw [take, update_eq]
      by_cases hf : ((follow changes).get? f.id).isSome
      · rw [if_pos hf]
        dsimp only
        rw [keys_create_of_some hf]
        exact hkept
      · rw [if_neg hf]
        exact hkept
    | delete deleted =>
      refine pairwise_before_concat (ih.sublist (OrderedMap.keys_remove_sublist _ _)) ?_
      rintro id hid heq
      cases heq
      have hnone := get?_delete (follow changes) deleted deleted
      rw [if_pos rfl] at hnone
      have hsome : (((follow changes).delete deleted).1.get? deleted).isSome :=
        OrderedMap.mem_keys.1 hid
      rw [hnone] at hsome
      cases hsome

/-! ## Lists -/

/-- Whether a flow comes before another in a list: it was changed later, or both were changed at one
moment and its id came in before. -/
def Precedes (changes : List Change) (f g : Flow) : Prop :=
  ∃ t u, f.updatedAt.instant? = some t ∧ g.updatedAt.instant? = some u ∧
    (u < t ∨ u = t ∧ Before changes f.id g.id)

theorem mem_values_follow : f ∈ (follow changes).flows.values ↔
    (follow changes).get? f.id = some f := by
  simp only [OrderedMap.values, List.mem_map, Prod.exists, exists_eq_right]
  constructor
  · rintro ⟨id, hmem⟩
    have hget : (follow changes).get? id = some f := OrderedMap.mem_entries.1 hmem
    obtain ⟨rfl, -⟩ := (get?_follow changes id f).1 hget
    exact hget
  · intro hget
    exact ⟨f.id, OrderedMap.mem_entries.2 hget⟩

/-- Every flow is kept under its own id. -/
theorem ids_values_follow (changes : List Change) :
    (follow changes).flows.values.map Flow.id = (follow changes).flows.keys := by
  rw [OrderedMap.values, OrderedMap.keys, List.map_map]
  refine List.map_congr_left ?_
  rintro ⟨id, f⟩ hmem
  have hget : (follow changes).get? id = some f := OrderedMap.mem_entries.1 hmem
  exact ((get?_follow changes id f).1 hget).1

/-- A timestamp with an offset stands at its moment. -/
theorem place_eq {t : Timestamp} (h : t.offset.isSome) : t.instant? = some (place t) := by
  obtain ⟨seconds, hoffset⟩ := Option.isSome_iff_exists.1 h
  simp [place, Timestamp.instant?, hoffset]

/-- What is written was brought by a change. -/
theorem Written.exists_change (h : Written changes f) : ∃ c ∈ changes, c.flow? = some f := by
  obtain ⟨before, c, after, rfl, hc, -⟩ := h
  exact ⟨c, by simp, hc⟩

theorem list_eq {flows : List Flow} {active : Option Bool}
    (h : s.flows.values.filter (fun f => active.all (f.active == ·)) = flows)
    (haware : ∀ f ∈ flows, f.updatedAt.offset.isSome) :
    s.list active = .ok (flows.mergeSort fun a b => place b.updatedAt ≤ place a.updatedAt) := by
  have hcomparable : comparable (flows.map (·.updatedAt)) = true := by
    simp only [comparable, Bool.or_eq_true, List.all_map, List.all_eq_true]
    exact .inl haware
  simp only [list, h]
  rw [if_pos hcomparable]

/-- The list of flows has the newest first, and those of one moment in the order in which they came
in. -/
theorem pairwise_list {flows : List Flow} (hsub : flows.Sublist (follow changes).flows.values)
    (haware : ∀ f ∈ flows, f.updatedAt.offset.isSome) :
    (flows.mergeSort fun a b => place b.updatedAt ≤ place a.updatedAt).Pairwise
      (Precedes changes) := by
  have hbefore : flows.Pairwise fun f g => Before changes f.id g.id := by
    refine List.Pairwise.sublist hsub (List.pairwise_map.1 ?_)
    rw [ids_values_follow]
    exact ordered_follow changes
  have hsorted := pairwise_mergeSort_ties
    (fun a b : Flow => decide (place b.updatedAt ≤ place a.updatedAt))
    (by simp only [decide_eq_true_eq]; omega)
    (by simp only [Bool.or_eq_true, decide_eq_true_eq]; omega)
    hbefore
  refine hsorted.imp_of_mem ?_
  rintro f g hf hg ⟨hle, hties⟩
  have hle := of_decide_eq_true hle
  refine ⟨_, _, place_eq (haware f (List.mem_mergeSort.1 hf)),
    place_eq (haware g (List.mem_mergeSort.1 hg)), ?_⟩
  rcases Int.lt_or_eq_of_le hle with hlt | heq
  · exact .inl hlt
  · exact .inr ⟨heq, hties (decide_eq_true (Int.le_of_eq heq.symm))⟩

/-- **A store is an ordered map of what was written.**  After any creations, updates and deletions a
look-up finds the flow that was written last under its id since the id was deleted, or none.  An
update of an id under which there is no flow is refused, and changes nothing.  When all dates of
changes have an offset, the flows are listed, all of them or those that are active or not, each
once, from the newest to the oldest; those that were changed at one moment stand in the order in
which their ids came in. -/
theorem refines (changes : List Change)
    (haware : ∀ c ∈ changes, ∀ f, c.flow? = some f → f.updatedAt.offset.isSome) :
    (∀ id f, (follow changes).get? id = some f ↔ f.id = id ∧ Written changes f) ∧
    (∀ id, (follow changes).get? id = none ↔ ¬ Present changes id) ∧
    (∀ f, ¬ Present changes f.id → (follow changes).update f = .error ⟨f.id⟩ ∧
      follow (changes ++ [.update f]) = follow changes) ∧
    (∀ f, Present changes f.id →
      (follow changes).update f = .ok (follow (changes ++ [.update f]))) ∧
    ∀ active, ∃ flows, (follow changes).list active = .ok flows ∧
      (∀ f, f ∈ flows ↔ (follow changes).get? f.id = some f ∧ ∀ a ∈ active, f.active = a) ∧
      (flows.map Flow.id).Nodup ∧ flows.Pairwise (Precedes changes) := by
  refine ⟨get?_follow changes, fun id => ?_, fun f hf => ?_, fun f hf => ?_, fun active => ?_⟩
  · rw [← isSome_get?_follow, Option.not_isSome_iff_eq_none]
  · rw [← isSome_get?_follow] at hf
    rw [follow_concat, take, update_eq, if_neg hf]
    exact ⟨rfl, rfl⟩
  · rw [← isSome_get?_follow] at hf
    rw [follow_concat, take, update_eq, if_pos hf]
  · have hsub : ((follow changes).flows.values.filter
        fun f => active.all (f.active == ·)).Sublist (follow changes).flows.values :=
      List.filter_sublist
    have hoffset : ∀ f ∈ (follow changes).flows.values.filter
        fun f => active.all (f.active == ·), f.updatedAt.offset.isSome := by
      intro f hf
      have hget := mem_values_follow.1 (hsub.subset hf)
      obtain ⟨c, hc, hflow⟩ := ((get?_follow changes f.id f).1 hget).2.exists_change
      exact haware c hc f hflow
    refine ⟨_, list_eq rfl hoffset, fun f => ?_, ?_, pairwise_list hsub hoffset⟩
    · rw [List.mem_mergeSort, List.mem_filter, mem_values_follow]
      cases active <;> simp
    · refine ((List.mergeSort_perm _ _).map Flow.id).nodup_iff.2 ?_
      refine List.Nodup.sublist (hsub.map Flow.id) ?_
      rw [ids_values_follow]
      exact (follow changes).flows.distinct

/-- A flow without nodes that was changed at a time on a clock. -/
def stamped (id : String) (seconds offset : Int) : Flow :=
  ⟨id, "Greeting", false, [], [], .utc 0, ⟨seconds * 1000000, some offset⟩⟩

/-- Flows are changed at one moment on several clocks; one is updated before it is created, and one
is deleted and created again. -/
def stamps : List Change :=
  [.create (stamped "a" 0 0), .create (stamped "b" 7200 7200), .update (stamped "c" 9 0),
    .create (stamped "c" 1 0), .delete "a", .create (stamped "a" (-3600) (-3600)),
    .create (stamped "b" 3600 3600)]

/-- The flow that was changed last comes first, and then the one whose id was not deleted. -/
theorem stamps_refine : ∃ flows, (follow stamps).list none = .ok flows ∧
    flows.map Flow.id = ["c", "b", "a"] ∧ flows.Pairwise (Precedes stamps) := by
  have haware : ∀ c ∈ stamps, ∀ f, c.flow? = some f → f.updatedAt.offset.isSome := by
    simp [stamps, Change.flow?, stamped]
  obtain ⟨-, -, -, -, hlist⟩ := refines stamps haware
  obtain ⟨flows, hflows, -, -, horder⟩ := hlist none
  have hvalues : (follow stamps).flows.values.filter
      (fun f => (none : Option Bool).all (f.active == ·)) =
      [stamped "b" 3600 3600, stamped "c" 1 0, stamped "a" (-3600) (-3600)] := rfl
  have hsorted : flows = [stamped "c" 1 0, stamped "b" 3600 3600, stamped "a" (-3600) (-3600)] := by
    rw [list_eq hvalues (by simp [stamped])] at hflows
    rw [← Except.ok.inj hflows]
    simp [List.mergeSort, stamped, place, Timestamp.instant?]
  exact ⟨flows, hflows, by rw [hsorted]; rfl, horder⟩

end Campaign.FlowStore
