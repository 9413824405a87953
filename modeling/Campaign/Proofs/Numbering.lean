/-!
# Lists in the order of their numbers

Timers and open sends stand in lists in which every item has a number higher than those before it.
An item is found by its number, and taken out by dropping what bears the number: this takes out the
item and nothing else (`perm_cons_filter_number`, `filter_filter_number`), wherever it stands
(`filter_number_eq_eraseIdx`).
-/
namespace Campaign

variable {α : Type} {l : List α} {a b : α}

/-- Items with the same number are the same. -/
theorem eq_of_number_eq (number : α → Nat) (h : l.Pairwise fun a b => number a < number b)
    (ha : a ∈ l) (hb : b ∈ l) (he : number a = number b) : a = b := by
  refine List.Pairwise.forall_of_forall_of_flip
    (R := fun a b => number a = number b → a = b) (fun _ _ _ => rfl) ?_ ?_ ha hb he
  · exact h.imp fun hlt he => absurd he (Nat.ne_of_lt hlt)
  · exact h.imp fun hlt he => absurd he.symm (Nat.ne_of_lt hlt)

/-- An item taken out by its number. -/
theorem perm_cons_filter_number (number : α → Nat)
    (h : l.Pairwise fun a b => number a < number b) (ha : a ∈ l) :
    l.Perm (a :: l.filter fun b => number b != number a) := by
  induction l with
  | nil => cases ha
  | cons b l ih =>
    obtain ⟨hb, hl⟩ := List.pairwise_cons.1 h
    rcases List.mem_cons.1 ha with rfl | ha
    · have hkeep : l.filter (fun b => number b != number a) = l := by
        refine List.filter_eq_self.2 fun c hc => ?_
        simpa using Nat.ne_of_gt (hb c hc)
      simp [hkeep]
    · have hne : (number b != number a) = true := by simpa using Nat.ne_of_lt (hb a ha)
      simp only [List.filter_cons, hne, if_true]
      exact ((ih hl ha).cons b).trans (.swap a b _)

/-- An item taken out by its number is taken out of its place. -/
theorem filter_number_eq_eraseIdx (number : α → Nat)
    (h : l.Pairwise fun a b => number a < number b) {i : Nat} (ha : l[i]? = some a) :
    (l.filter fun b => number b != number a) = l.eraseIdx i := by
  induction l generalizing i with
  | nil => cases ha
  | cons b l ih =>
    obtain ⟨hb, hl⟩ := List.pairwise_cons.1 h
    cases i with
    | zero =>
      obtain rfl : b = a := Option.some.inj ha
      have hkeep : l.filter (fun c => number c != number b) = l :=
        List.filter_eq_self.2 fun c hc => by simpa using Nat.ne_of_gt (hb c hc)
      simp [hkeep]
    | succ i =>
      have ha : l[i]? = some a := ha
      have hne : (number b != number a) = true := by
        simpa using Nat.ne_of_lt (hb a (List.mem_of_getElem? ha))
      simp only [List.filter_cons, hne, if_true, List.eraseIdx_cons_succ, ih hl ha]

/-- Taking out an item leaves those of another kind as they are. -/
theorem filter_filter_number (number : α → Nat)
    (h : l.Pairwise fun a b => number a < number b) (ha : a ∈ l) {p : α → Bool}
    (hp : p a = false) :
    (l.filter fun b => number b != number a).filter p = l.filter p := by
  rw [List.filter_filter]
  refine List.filter_congr fun b hb => ?_
  by_cases he : number b = number a
  · rw [eq_of_number_eq number h hb ha he, hp]
    rfl
  · simp [he]

end Campaign
