/-!
# Entries in order

A list of entries keyed by text, each key at most once, in the order in which the keys were first
put.  Putting a key that is present changes its entry in place.

* `put` and `remove` on plain lists, with what they do to the keys and to a look-up;
* `OrderedMap`, the lists whose keys are distinct, with the same operations.
-/
namespace Campaign

namespace Entries

variable {α : Type}

/-- Changes the entry of a key in place, or adds it at the end. -/
def put (key : String) (a : α) : List (String × α) → List (String × α)
  | [] => [(key, a)]
  | (k, b) :: rest => if k = key then (k, a) :: rest else (k, b) :: put key a rest

/-- Drops the entry of a key. -/
def remove (key : String) (entries : List (String × α)) : List (String × α) :=
  entries.filter fun e => e.1 != key

theorem keys_put (key : String) (a : α) (l : List (String × α)) :
    (put key a l).map Prod.fst =
      if key ∈ l.map Prod.fst then l.map Prod.fst else l.map Prod.fst ++ [key] := by
  induction l with
  | nil => simp [put]
  | cons e l ih =>
    obtain ⟨k, b⟩ := e
    by_cases h : k = key
    · simp [put, h]
    · have h' : ¬ key = k := fun h' => h h'.symm
      simp only [put, h, if_false, List.map_cons, ih, List.mem_cons, h', false_or]
      split <;> simp

theorem nodup_keys_put (key : String) (a : α) {l : List (String × α)}
    (h : (l.map Prod.fst).Nodup) : ((put key a l).map Prod.fst).Nodup := by
  rw [keys_put]
  split
  · exact h
  · rename_i hk
    exact List.nodup_append.2 ⟨h, by simp, by
      intro x hx y hy
      rw [List.mem_singleton.1 hy]
      exact fun e => hk (e ▸ hx)⟩

theorem nodup_keys_remove (key : String) {l : List (String × α)}
    (h : (l.map Prod.fst).Nodup) : ((remove key l).map Prod.fst).Nodup :=
  h.sublist ((List.filter_sublist).map Prod.fst)

theorem lookup_cons (k key : String) (a : α) (l : List (String × α)) :
    List.lookup k ((key, a) :: l) = if k = key then some a else l.lookup k := by
  rw [List.lookup_cons]
  by_cases h : k = key
  · simp [h]
  · simp [show (k == key) = false by simpa using h, h]

theorem lookup_put (key k : String) (a : α) (l : List (String × α)) :
    (put key a l).lookup k = if k = key then some a else l.lookup k := by
  induction l with
  | nil => simp [put, lookup_cons]
  | cons e l ih =>
    obtain ⟨k', b⟩ := e
    by_cases h : k' = key
    · subst h
      simp only [put, if_true, lookup_cons]
      split <;> rfl
    · simp only [put, h, if_false, lookup_cons, ih]
      by_cases hk : k = k'
      · subst hk; simp [h]
      · simp [hk]

theorem lookup_remove (key k : String) (l : List (String × α)) :
    (remove key l).lookup k = if k = key then none else l.lookup k := by
  induction l with
  | nil => simp [remove]
  | cons e l ih =>
    obtain ⟨k', b⟩ := e
    simp only [remove] at ih ⊢
    by_cases h : k' = key
    · subst h
      simp only [List.filter_cons, bne_self_eq_false, Bool.false_eq_true, if_false, ih,
        lookup_cons]
      split <;> rfl
    · simp only [List.filter_cons, show (k' != key) = true by simpa using h, if_true,
        lookup_cons, ih]
      by_cases hk : k = k'
      · subst hk; simp [h]
      · simp [hk]

end Entries

/-- Entries keyed by text, in the order in which the keys were first put. -/
structure OrderedMap (α : Type) where
  entries : List (String × α)
  distinct : (entries.map Prod.fst).Nodup

namespace OrderedMap

variable {α β : Type}

/-- No entries. -/
def empty : OrderedMap α := ⟨[], by simp⟩

instance : Inhabited (OrderedMap α) := ⟨empty⟩

def keys (m : OrderedMap α) : List String := m.entries.map Prod.fst

def values (m : OrderedMap α) : List α := m.entries.map Prod.snd

def get? (m : OrderedMap α) (key : String) : Option α := m.entries.lookup key

def contains (m : OrderedMap α) (key : String) : Bool := (m.get? key).isSome

/-- Changes the entry of a key in place, or adds it at the end. -/
def put (m : OrderedMap α) (key : String) (a : α) : OrderedMap α :=
  ⟨Entries.put key a m.entries, Entries.nodup_keys_put key a m.distinct⟩

/-- Drops the entry of a key. -/
def remove (m : OrderedMap α) (key : String) : OrderedMap α :=
  ⟨Entries.remove key m.entries, Entries.nodup_keys_remove key m.distinct⟩

/-- Changes the entry of a key by a function; nothing happens where the key is absent. -/
def modify (m : OrderedMap α) (key : String) (f : α → α) : OrderedMap α :=
  match m.get? key with
  | some a => m.put key (f a)
  | none => m

theorem get?_put (m : OrderedMap α) (key k : String) (a : α) :
    (m.put key a).get? k = if k = key then some a else m.get? k :=
  Entries.lookup_put key k a m.entries

@[simp] theorem get?_empty (k : String) : (empty : OrderedMap α).get? k = none := rfl

theorem get?_remove (m : OrderedMap α) (key k : String) :
    (m.remove key).get? k = if k = key then none else m.get? k :=
  Entries.lookup_remove key k m.entries

theorem get?_modify (m : OrderedMap α) (key k : String) (f : α → α) :
    (m.modify key f).get? k = if k = key then (m.get? k).map f else m.get? k := by
  unfold modify
  split
  · rename_i a h
    rw [get?_put]
    split
    · rename_i hk
      simp [hk, h]
    · rfl
  · rename_i h
    split
    · rename_i hk
      simp [hk, h]
    · rfl

end OrderedMap

end Campaign
