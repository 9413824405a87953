/-!
# Timers

A scheduler holds what is to happen later, in the order in which it was asked for.  A timer belongs
to a run and a node; it can be cancelled by these until it fires, and it leaves the scheduler when
it does.

* `schedule` gives every timer a number of its own;
* `cancel` and `cancelAll` drop timers and say how many;
* `fire` takes out one timer, if it is still there.
-/
namespace Campaign

/-- Something that is to happen later. -/
structure Timer (α : Type) where
  number : Nat
  run : String
  node : String
  what : α

/-- Whether a timer belongs to a run and a node. -/
def Timer.isAt {α : Type} (t : Timer α) (run node : String) : Bool :=
  t.run == run && t.node == node

/-- The timers that are neither fired nor cancelled. -/
structure Scheduler (α : Type) where
  /-- The number of the next timer. -/
  next : Nat := 0
  pending : List (Timer α) := []

namespace Scheduler

variable {α : Type}

instance : Inhabited (Scheduler α) := ⟨{}⟩

/-- Adds a timer. -/
def schedule (s : Scheduler α) (run node : String) (what : α) : Scheduler α :=
  { next := s.next + 1, pending := s.pending ++ [⟨s.next, run, node, what⟩] }

/-- Drops the timers of a run at a node. -/
def cancel (s : Scheduler α) (run node : String) : Scheduler α :=
  { s with pending := s.pending.filter fun t => !t.isAt run node }

/-- The number of timers of a run at a node. -/
def countAt (s : Scheduler α) (run node : String) : Nat :=
  s.pending.countP fun t => t.isAt run node

/-- Drops the timers of a run. -/
def cancelAll (s : Scheduler α) (run : String) : Scheduler α :=
  { s with pending := s.pending.filter fun t => t.run != run }

/-- The number of timers of a run. -/
def count (s : Scheduler α) (run : String) : Nat := s.pending.countP fun t => t.run == run

/-- Drops all timers. -/
def clear (s : Scheduler α) : Scheduler α := { s with pending := [] }

/-- The timer of a number, if it is there. -/
def find? (s : Scheduler α) (number : Nat) : Option (Timer α) :=
  s.pending.find? fun t => t.number == number

/-- Takes out the timer of a number, if it is there. -/
def fire (s : Scheduler α) (number : Nat) : Option (Timer α × Scheduler α) :=
  (s.find? number).map fun t =>
    (t, { s with pending := s.pending.filter fun t => t.number != number })

end Scheduler

end Campaign
