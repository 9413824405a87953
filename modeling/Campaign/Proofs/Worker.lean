import Campaign.Agenda
/-!
# What a worker does, one thing after the other

On its own a worker goes on from one thing to the next (`Worker.Goes`), until it comes to a task of
its client, or stops (`workFor_cases`).  If everything that it does lowers a measure, enough fuel
lets it stop only where there is nothing left to do (`next_of_workFor`).

`Worker.Does` is one thing that a worker does, the handing of a task to the client included.  What
all of these keep, and what posting the client's turn keeps, is kept however long the worker is at
work (`kept_work`, `kept_settle`, `kept_advance`).
-/
namespace Campaign.Worker

variable {σ α : Type} {w : Worker σ α} {p : σ → Prop} {s : σ}

/-- One thing that a worker does on its own. -/
inductive Goes (w : Worker σ α) (s : σ) : σ → Prop
  | perform {a : α} {g : Agenda α} {s' : σ} : (w.agenda s).next = .perform a g →
      w.perform (w.setAgenda s g) a = some s' → Goes w s s'
  | pass {g : Agenda α} : (w.agenda s).next = .pass g → Goes w s (w.setAgenda s g)

/-- One thing that a worker does. -/
inductive Does (w : Worker σ α) (s : σ) : σ → Prop
  | perform {a : α} {g : Agenda α} {s' : σ} : (w.agenda s).next = .perform a g →
      w.perform (w.setAgenda s g) a = some s' → Does w s s'
  /-- The task is the client's. -/
  | hand {a : α} {g : Agenda α} : (w.agenda s).next = .perform a g →
      w.perform (w.setAgenda s g) a = none → Does w s (w.setAgenda s g)
  | pass {g : Agenda α} : (w.agenda s).next = .pass g → Does w s (w.setAgenda s g)

theorem Goes.does {s' : σ} (h : w.Goes s s') : w.Does s s' := by
  cases h with
  | perform hnext hperform => exact .perform hnext hperform
  | pass hnext => exact .pass hnext

/-- **A worker goes on until it stops, or comes to a task of its client.** -/
theorem workFor_cases (go : ∀ s s', p s → w.Goes s s' → p s') (fuel : Nat) (h : p s) :
    ∃ s', p s' ∧ (w.workFor fuel s = (s', none) ∨ ∃ a g, (w.agenda s').next = .perform a g ∧
      w.perform (w.setAgenda s' g) a = none ∧ w.workFor fuel s = (w.setAgenda s' g, some a)) := by
  induction fuel generalizing s with
  | zero => exact ⟨s, h, .inl rfl⟩
  | succ fuel ih =>
    unfold workFor
    split
    · rename_i a g hnext
      dsimp only
      split
      · rename_i s' hperform
        exact ih (go s s' h (.perform hnext hperform))
      · rename_i hperform
        exact ⟨s, h, .inr ⟨a, g, hnext, hperform, rfl⟩⟩
    · rename_i g hnext
      exact ih (go s _ h (.pass hnext))
    · exact ⟨s, h, .inl rfl⟩

/-- **With enough fuel a worker stops only where there is nothing left to do.** -/
theorem next_of_workFor {m : σ → Nat} (go : ∀ s s', p s → w.Goes s s' → p s' ∧ m s' < m s)
    (idle : ∀ s, p s → m s = 0 → (w.agenda s).next = .nothing) {fuel : Nat} (h : p s)
    (hf : m s ≤ fuel) {s' : σ} (hstop : w.workFor fuel s = (s', none)) :
    (w.agenda s').next = .nothing := by
  induction fuel generalizing s with
  | zero =>
    obtain rfl := congrArg Prod.fst hstop
    exact idle s h (Nat.le_zero.1 hf)
  | succ fuel ih =>
    have hnext {s₁ : σ} (hg : w.Goes s s₁) (hrest : w.workFor fuel s₁ = (s', none)) :
        (w.agenda s').next = .nothing := by
      obtain ⟨hp, hless⟩ := go s s₁ h hg
      exact ih hp (by omega) hrest
    unfold workFor at hstop
    split at hstop
    · rename_i a g hperform
      dsimp only at hstop
      split at hstop
      · rename_i s₁ hdone
        exact hnext (.perform hperform hdone) hstop
      · cases hstop
    · rename_i g hpass
      exact hnext (.pass hpass) hstop
    · rename_i hnothing
      obtain rfl := congrArg Prod.fst hstop
      exact hnothing

theorem kept_workFor (step : ∀ s s', p s → w.Does s s' → p s') (fuel : Nat) (h : p s) :
    p (w.workFor fuel s).1 := by
  obtain ⟨s', hs', hstop | ⟨a, g, hnext, hperform, hhand⟩⟩ :=
    workFor_cases (fun s s' h hg => step s s' h hg.does) fuel h
  · rwa [hstop]
  · rw [hhand]
    exact step s' _ hs' (.hand hnext hperform)

theorem kept_work (step : ∀ s s', p s → w.Does s s' → p s') (h : p s) : p (w.work s).1 :=
  kept_workFor step (w.fuel s) h

/-- What is kept until nothing is ready. -/
theorem kept_settle (step : ∀ s s', p s → w.Does s s' → p s')
    (turn : ∀ s, p s → p (w.post s w.turn)) (h : p s) : p (w.settle s) := by
  unfold settle
  generalize w.fuel s = fuel
  induction fuel generalizing s with
  | zero => exact h
  | succ fuel ih =>
    unfold settleFor
    split
    · exact h
    · exact ih (kept_work step (turn s h))

/-- What is kept while time passes. -/
theorem kept_advance {micros : Int} (step : ∀ s s', p s → w.Does s s' → p s')
    (turn : ∀ s, p s → p (w.post s w.turn))
    (sleep : p (w.setAgenda s ((w.agenda s).putOff micros w.turn))) : p (w.advance s micros) :=
  kept_settle step turn (kept_work step sleep)

end Campaign.Worker
