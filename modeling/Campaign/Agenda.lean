/-!
# The agenda of a single worker

One worker carries out tasks, one at a time, in the order in which they were posted.  A task can
also be put off by an alarm.  Time stands still while a task is ready; when none is, it jumps to
the next alarm.  Alarms ring in the order of their moments, and an alarm that rings posts its task.

The clock has a grid of microseconds.  The order of alarms of one moment is the worker's own affair:
`Agenda.insert` puts a new one behind the others, and `Agenda.exchange` is the liberty to have two
of them change places.  Whoever relies on an order among them relies on a worker that takes no such
liberty.
-/
namespace Campaign

/-- Something ready to be done. -/
inductive Ready (α : Type) where
  /-- Carry out a task. -/
  | task (a : α)
  /-- Ring an alarm, which posts a task. -/
  | ring (a : α)

/-- The weight of something ready: an alarm that rings has a step to go before its task is ready. -/
def Ready.weight {α : Type} (w : α → Nat) : Ready α → Nat
  | .task a => w a
  | .ring a => w a + 1

/-- A task put off to a moment. -/
structure Alarm (α : Type) where
  /-- Microseconds since the start of 1970. -/
  due : Int
  task : α

/-- What there is to do, and what time it is. -/
structure Agenda (α : Type) where
  /-- Microseconds since the start of 1970. -/
  now : Int
  ready : List (Ready α) := []
  /-- The alarms by the moment at which they are due. -/
  alarms : List (Alarm α) := []

namespace Agenda

variable {α : Type}

/-- Posts a task. -/
def post (g : Agenda α) (a : α) : Agenda α := { g with ready := g.ready ++ [.task a] }

/-- Puts an alarm behind those that are due no later. -/
def insert (alarm : Alarm α) : List (Alarm α) → List (Alarm α)
  | [] => [alarm]
  | b :: bs => if b.due ≤ alarm.due then b :: insert alarm bs else alarm :: b :: bs

/-- Has the alarm at a place and the one behind it change places, if they are due at one moment. -/
def exchangeAt : Nat → List (Alarm α) → List (Alarm α)
  | 0, b :: c :: l => if b.due = c.due then c :: b :: l else b :: c :: l
  | n + 1, b :: l => b :: exchangeAt n l
  | _, l => l

/-- Two alarms of one moment change places. -/
def exchange (g : Agenda α) (n : Nat) : Agenda α := { g with alarms := exchangeAt n g.alarms }

/-- Puts a task off; where there is no time to pass it is only posted. -/
def putOff (g : Agenda α) (micros : Int) (a : α) : Agenda α :=
  if micros ≤ 0 then g.post a
  else { g with alarms := insert ⟨g.now + micros, a⟩ g.alarms }

/-- Drops what was put off and fulfils a condition. -/
def dropAlarms (g : Agenda α) (p : α → Bool) : Agenda α :=
  { g with alarms := g.alarms.filter fun alarm => !p alarm.task }

/-- Drops everything that fulfils a condition. -/
def drop (g : Agenda α) (p : α → Bool) : Agenda α :=
  { g.dropAlarms p with
    ready := g.ready.filter fun
      | .task a | .ring a => !p a }

/-- Whether something that fulfils a condition is ready or put off. -/
def has (g : Agenda α) (p : α → Bool) : Bool :=
  g.alarms.any (fun alarm => p alarm.task) || g.ready.any fun
    | .task a | .ring a => p a

/-- Whether nothing is ready. -/
def idle (g : Agenda α) : Bool := g.ready.isEmpty

/-- The weight of what is to be done: an alarm has two steps to go before its task is ready. -/
def weight (w : α → Nat) (g : Agenda α) : Nat :=
  g.ready.foldr (fun r n => r.weight w + n) 0 +
    g.alarms.foldr (fun alarm n => w alarm.task + 2 + n) 0

/-- The next thing that happens. -/
inductive Next (α : Type) where
  /-- A task is carried out. -/
  | perform (a : α) (g : Agenda α)
  /-- An alarm rings, or time passes. -/
  | pass (g : Agenda α)
  /-- There is nothing left to do. -/
  | nothing

/-- What happens next. -/
def next (g : Agenda α) : Next α :=
  match g.ready, g.alarms with
  | .task a :: rest, _ => .perform a { g with ready := rest }
  | .ring a :: rest, _ => .pass { g with ready := rest ++ [.task a] }
  | [], alarm :: _ =>
    .pass { now := alarm.due
            ready := (g.alarms.takeWhile fun b => b.due ≤ alarm.due).map fun b => .ring b.task
            alarms := g.alarms.dropWhile fun b => b.due ≤ alarm.due }
  | [], [] => .nothing

end Agenda

/-- A worker with an agenda: a state that holds the agenda, and what a task does to it.  Tasks that
do nothing to it are a client's, who then has a turn. -/
structure Worker (σ α : Type) where
  agenda : σ → Agenda α
  setAgenda : σ → Agenda α → σ
  perform : σ → α → Option σ
  /-- The task that gives the client a turn. -/
  turn : α
  /-- A bound on the number of things that there are to do. -/
  fuel : σ → Nat

namespace Worker

variable {σ α : Type}

/-- Posts a task. -/
def post (w : Worker σ α) (s : σ) (a : α) : σ := w.setAgenda s ((w.agenda s).post a)

/-- Works until a task of the client comes up; the fuel bounds the number of things done.  There
is none if the agenda runs out. -/
def workFor (w : Worker σ α) : Nat → σ → σ × Option α
  | 0, s => (s, none)
  | fuel + 1, s =>
    match (w.agenda s).next with
    | .perform a g =>
      let s := w.setAgenda s g
      match w.perform s a with
      | some s => workFor w fuel s
      | none => (s, some a)
    | .pass g => workFor w fuel (w.setAgenda s g)
    | .nothing => (s, none)

/-- Works until a task of the client comes up. -/
def work (w : Worker σ α) (s : σ) : σ × Option α := w.workFor (w.fuel s) s

/-- Gives the others their turn, again and again, until nothing is ready. -/
def settleFor (w : Worker σ α) : Nat → σ → σ
  | 0, s => s
  | fuel + 1, s =>
    if (w.agenda s).idle then s else settleFor w fuel (w.work (w.post s w.turn)).1

/-- Works until nothing is ready; time stands still. -/
def settle (w : Worker σ α) (s : σ) : σ := w.settleFor (w.fuel s) s

/-- Lets some time pass and works until nothing is ready. -/
def advance (w : Worker σ α) (s : σ) (micros : Int) : σ :=
  w.settle (w.work (w.setAgenda s ((w.agenda s).putOff micros w.turn))).1

end Worker

end Campaign
