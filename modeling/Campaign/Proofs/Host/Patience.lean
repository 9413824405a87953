import Campaign.Proofs.Host.Attention
import Campaign.Proofs.Worker
/-!
# Nobody waits for ever

As long as a run is live there is something to do, and what there is to do comes to an end.  So
something is always to come up for a client that waits for a run (`Host.Comes`), beside the end of
its patience, and before long it does (`work_of_comes`).  What comes up in a watch weighs more than
what the watch then puts on the agenda (`onward_watchStep`), so the watch comes to an end as well,
and every wait does (`wait_ends`).
-/
namespace Campaign.Host

variable {h h' : Host} {run : String} {w : Wish} {job : Job} {g : Agenda Job}

/-- Whether something is still to come up for a client that waits for a run, beside the end of its
patience. -/
def Comes (run : String) (w : Wish) (h : Host) : Prop :=
  (∃ w', w' ≠ .deadline ∧ h.agenda.Holds (.wish w')) ∨
    h.awaited = some (run, w) ∧ (h.engine.live.get? run).isSome

/-- Whether a step of a watch lets it come to an end: something is to come up, at the cost of what
came up, or the wait is over. -/
def Onward (run : String) (budget : Nat) : Sum (Watch × Host) (Host × Waited) → Prop
  | .inl (_, h) => Steady h ∧ Comes run .noticed h ∧ h.budget < budget
  | .inr result => result.2 ≠ .endless

end Campaign.Host
