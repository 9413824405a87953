import Campaign.Proofs.Engine.Share
/-!
# What an engine waits for

Between turns the engine waits for signals: that a walk begin, that a reply arrive, that a timer
fire.  It asks for a signal when it comes to wait for it (`Engine.Asks`).
-/
namespace Campaign

/-- Something that lets a walk go on. -/
inductive Signal where
  /-- The walk of a run begins. -/
  | walk (run : String)
  /-- The reply to the message of a ticket arrives. -/
  | reply (ticket : Nat)
  /-- A timer fires. -/
  | timer (number : Nat)
  deriving DecidableEq

/-- The signal for which the outside is asked. -/
def Effect.signal? : Effect → Option Signal
  | .begin run => some (.walk run)
  | .arm timer _ => some (.timer timer)
  | .send ticket _ => some (.reply ticket)
  | .ended _ => none

namespace Engine

/-- Whether an engine waits for a signal; runs that are live no more wait for no walk to begin. -/
def Expects (e : Engine) : Signal → Prop
  | .walk run => e.isLive run = true ∧ run ∈ e.unstarted
  | .reply ticket => ticket ∈ e.sending.map Prod.fst
  | .timer number => number ∈ e.timers.pending.map Timer.number

/-- Whether the outside is asked for every signal for which an engine newly waits. -/
def Asks (e e' : Engine) : Prop :=
  ∃ added, e'.effects = e.effects ++ added ∧
    ∀ s, e'.Expects s → e.Expects s ∨ ∃ x ∈ added, x.signal? = some s

variable {e e' e'' : Engine}

/-- What goes on to wait for no other signals. -/
theorem Asks.of_expects {added : List Effect} (he : e'.effects = e.effects ++ added)
    (h : ∀ s, e'.Expects s → e.Expects s) : Asks e e' :=
  ⟨added, he, fun s hs => .inl (h s hs)⟩

theorem Asks.refl (e : Engine) : Asks e e := .of_expects (List.append_nil _).symm fun _ => id

theorem Asks.trans (h₁ : Asks e e') (h₂ : Asks e' e'') : Asks e e'' := by
  obtain ⟨added₁, he₁, hs₁⟩ := h₁
  obtain ⟨added₂, he₂, hs₂⟩ := h₂
  refine ⟨added₁ ++ added₂, by rw [he₂, he₁, List.append_assoc], fun s hs => ?_⟩
  rcases hs₂ s hs with hs | ⟨x, hx, hsignal⟩
  · refine (hs₁ s hs).imp_right ?_
    rintro ⟨x, hx, hsignal⟩
    exact ⟨x, List.mem_append_left _ hx, hsignal⟩
  · exact .inr ⟨x, List.mem_append_right _ hx, hsignal⟩

/-- An engine that has the same live runs, and of what it waits for no more. -/
theorem Expects.of_subset {s : Signal} (h : e'.Expects s)
    (hl : ∀ run, e'.isLive run = true → e.isLive run = true) (hu : e'.unstarted ⊆ e.unstarted)
    (hs : e'.sending ⊆ e.sending) (ht : e'.timers.pending ⊆ e.timers.pending) : e.Expects s := by
  cases s with
  | walk run => exact ⟨hl run h.1, hu h.2⟩
  | reply ticket => exact List.map_subset _ hs h
  | timer number => exact List.map_subset _ ht h

end Engine

end Campaign
