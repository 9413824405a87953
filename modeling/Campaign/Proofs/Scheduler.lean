import Campaign.Scheduler
/-!
# The numbers of timers

Timers are numbered in the order in which they are set, and no number is given twice: the timers of
a scheduler are strictly ordered by their numbers, all below the next (`Scheduler.Numbered`).  What
is set later has a number that was not given before (`Scheduler.Later`), so a timer that is gone
does not come back (`Later.find?_eq_none`).
-/
namespace Campaign.Scheduler

variable {α : Type} {s : Scheduler α}

/-- The timers are strictly ordered by their numbers, and those to come have higher ones. -/
structure Numbered (s : Scheduler α) : Prop where
  ordered : s.pending.Pairwise fun t u => t.number < u.number
  bounded : ∀ t ∈ s.pending, t.number < s.next

theorem Numbered.empty : Numbered ({} : Scheduler α) := ⟨.nil, by simp⟩

theorem Numbered.schedule (h : s.Numbered) (run node : String) (what : α) :
    (s.schedule run node what).Numbered where
  ordered := by
    refine List.pairwise_append.2 ⟨h.ordered, List.pairwise_singleton _ _, ?_⟩
    intro t ht u hu
    rw [List.mem_singleton.1 hu]
    exact h.bounded t ht
  bounded := by
    intro t ht
    simp only [Scheduler.schedule, List.mem_append, List.mem_singleton] at ht ⊢
    rcases ht with ht | rfl
    · exact Nat.lt_succ_of_lt (h.bounded t ht)
    · exact Nat.lt_succ_self _

theorem Numbered.filter (h : s.Numbered) (p : Timer α → Bool) :
    Numbered { s with pending := s.pending.filter p } where
  ordered := h.ordered.filter p
  bounded := fun t ht => h.bounded t (List.mem_filter.1 ht).1

/-- A timer that is found is there, under its number. -/
theorem mem_of_find? {number : Nat} {t : Timer α} (h : s.find? number = some t) :
    t ∈ s.pending ∧ t.number = number :=
  ⟨List.mem_of_find?_eq_some h, by simpa using List.find?_some h⟩

theorem find?_of_fire {number : Nat} {t : Timer α} {s' : Scheduler α}
    (h : s.fire number = some (t, s')) : s.find? number = some t ∧
      s' = { s with pending := s.pending.filter fun u => u.number != number } := by
  obtain ⟨u, hu, heq⟩ := Option.map_eq_some_iff.1 h
  cases heq
  exact ⟨hu, rfl⟩

/-- What can become of a scheduler: timers go, and timers with new numbers come. -/
structure Later (s s' : Scheduler α) : Prop where
  numbered : s.Numbered → s'.Numbered
  next : s.next ≤ s'.next
  fresh : ∀ t ∈ s'.pending, t ∈ s.pending ∨ s.next ≤ t.number

namespace Later

variable {s' s'' : Scheduler α}

theorem refl (s : Scheduler α) : Later s s := ⟨id, Nat.le_refl _, fun _ => .inl⟩

theorem trans (h₁ : Later s s') (h₂ : Later s' s'') : Later s s'' where
  numbered := h₂.numbered ∘ h₁.numbered
  next := Nat.le_trans h₁.next h₂.next
  fresh := by
    intro t ht
    rcases h₂.fresh t ht with ht | ht
    · exact h₁.fresh t ht
    · exact .inr (Nat.le_trans h₁.next ht)

theorem schedule (s : Scheduler α) (run node : String) (what : α) :
    Later s (s.schedule run node what) where
  numbered := fun h => h.schedule run node what
  next := Nat.le_succ _
  fresh := by
    intro t ht
    rcases List.mem_append.1 ht with ht | ht
    · exact .inl ht
    · rw [List.mem_singleton.1 ht]
      exact .inr (Nat.le_refl _)

theorem filter (s : Scheduler α) (p : Timer α → Bool) :
    Later s { s with pending := s.pending.filter p } where
  numbered := fun h => h.filter p
  next := Nat.le_refl _
  fresh := fun _ ht => .inl (List.mem_filter.1 ht).1

/-- A timer that is gone does not come back. -/
theorem find?_eq_none (h : Later s s') {number : Nat} (hgone : s.find? number = none)
    (hlt : number < s.next) : s'.find? number = none := by
  refine List.find?_eq_none.2 fun t ht hnumber => ?_
  obtain rfl : t.number = number := by simpa using hnumber
  rcases h.fresh t ht with hold | hnew
  · exact absurd (List.find?_eq_none.1 hgone t hold) (by simp)
  · omega

end Later

end Campaign.Scheduler
