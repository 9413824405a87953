import Campaign.Entries
/-!
# Entries and their look-ups

As the keys of an ordered map are distinct, its entries are just what its look-ups find.  Of the
entries that a function finds for some keys, `lookup_filterMap` says what is looked up in them.
-/
namespace Campaign

variable {α : Type}

theorem Entries.mem_iff_lookup {l : List (String × α)} (h : (l.map Prod.fst).Nodup) {key : String}
    {a : α} : (key, a) ∈ l ↔ l.lookup key = some a := by
  induction l with
  | nil => simp
  | cons e l ih =>
    obtain ⟨k, b⟩ := e
    obtain ⟨hk, hl⟩ := List.nodup_cons.1 h
    rw [lookup_cons, List.mem_cons, ih hl]
    by_cases heq : key = k
    · subst heq
      have hnot : l.lookup key ≠ some a := fun hsome =>
        hk (List.mem_map.2 ⟨(key, a), (ih hl).2 hsome, rfl⟩)
      simp [hnot, eq_comm]
    · simp [heq]

theorem Entries.lookup_of_not_mem {l : List (String × α)} {key : String}
    (h : key ∉ l.map Prod.fst) : l.lookup key = none := by
  refine List.lookup_eq_none_iff.2 fun e he => ?_
  have hne : key ≠ e.1 := fun heq => h (heq ▸ List.mem_map_of_mem he)
  simpa using hne

/-- A key that is new is put at the end. -/
theorem Entries.put_of_not_mem {l : List (String × α)} {key : String} (h : key ∉ l.map Prod.fst)
    (a : α) : put key a l = l ++ [(key, a)] := by
  induction l with
  | nil => rfl
  | cons e l ih =>
    rw [List.map_cons, List.mem_cons, not_or] at h
    rw [put, if_neg (Ne.symm h.1), ih h.2, List.cons_append]

section Selection

variable (f : String → Option α) (keys : List String)

theorem Entries.keys_filterMap : (keys.filterMap fun k => (f k).map fun a => (k, a)).map Prod.fst =
    keys.filter fun k => (f k).isSome := by
  induction keys with
  | nil => rfl
  | cons k keys ih => cases h : f k <;> simp [h, ih]

/-- Looking up a key among some keys with what they stand for. -/
theorem Entries.lookup_filterMap (key : String) :
    (keys.filterMap fun k => (f k).map fun a => (k, a)).lookup key =
      if key ∈ keys then f key else none := by
  induction keys with
  | nil => rfl
  | cons k keys ih =>
    by_cases hk : key = k
    · subst hk
      rw [if_pos List.mem_cons_self]
      cases hf : f key with
      | none => simp [hf, ih]
      | some a => simp [hf]
    · have hmem : key ∈ k :: keys ↔ key ∈ keys := by simp [hk]
      simp only [hmem, ← ih]
      cases hf : f k with
      | none => simp [hf]
      | some a => simp [hf, lookup_cons, hk]

end Selection

namespace OrderedMap

theorem mem_entries {m : OrderedMap α} {key : String} {a : α} :
    (key, a) ∈ m.entries ↔ m.get? key = some a :=
  Entries.mem_iff_lookup m.distinct

theorem mem_keys {m : OrderedMap α} {key : String} : key ∈ m.keys ↔ (m.get? key).isSome := by
  simp only [keys, List.mem_map, Option.isSome_iff_exists, ← mem_entries]
  constructor
  · rintro ⟨⟨k, a⟩, h, rfl⟩
    exact ⟨a, h⟩
  · rintro ⟨a, h⟩
    exact ⟨(key, a), h, rfl⟩

theorem keys_put_of_none {m : OrderedMap α} {key : String} (h : m.get? key = none) (a : α) :
    (m.put key a).keys = m.keys ++ [key] := by
  have hnot : key ∉ m.keys := by
    rw [mem_keys, h]
    exact Bool.false_ne_true
  exact (Entries.keys_put key a m.entries).trans (if_neg hnot)

theorem keys_modify (m : OrderedMap α) (key : String) (f : α → α) :
    (m.modify key f).keys = m.keys := by
  unfold modify
  split
  · rename_i a h
    have hmem : key ∈ m.keys := mem_keys.2 (by rw [h]; rfl)
    exact (Entries.keys_put key (f a) m.entries).trans (if_pos hmem)
  · rfl

theorem keys_remove_sublist (m : OrderedMap α) (key : String) :
    (m.remove key).keys.Sublist m.keys :=
  List.filter_sublist.map Prod.fst

/-- An entry that is there is dropped. -/
theorem length_keys_remove_lt {m : OrderedMap α} {key : String} (h : (m.get? key).isSome) :
    (m.remove key).keys.length < m.keys.length := by
  refine Nat.lt_of_le_of_ne (m.keys_remove_sublist key).length_le fun heq => ?_
  have hkeys := (m.keys_remove_sublist key).eq_of_length heq
  have hmem : key ∈ (m.remove key).keys := hkeys ▸ mem_keys.2 h
  simp [mem_keys, get?_remove] at hmem

end OrderedMap

end Campaign
