import Campaign.Agenda
import Campaign.Number.Binary64
import Campaign.Scheduler
/-!
# Timetables

A timetable is a scheduler at work: an entry has a label, and when its time has come the label is
written down with the moment, and the commands of the entry are carried out, which may schedule and
cancel other entries.  An entry may go on for a while after that; its end is then written down too.

An entry leaves the scheduler before its commands are carried out: it can no longer be cancelled,
but stopping the timetable as a whole also stops what has begun.
-/
namespace Campaign

/-- Something to be done to a timetable. -/
inductive Command where
  /-- Schedule an entry of a run at a node after some microseconds, with a label, the commands to
  carry out, and the microseconds for which it then goes on. -/
  | schedule (run node : String) (delay : Int) (label : String) (commands : List Command)
      (hold : Option Int)
  | cancel (run node : String)
  | cancelAll (run : String)
  | count (run : String)
  /-- Stop everything, the entry whose command this is included. -/
  | stop
  /-- A command that makes no sense: what comes after it is not done. -/
  | senseless
  deriving Inhabited

/-- What is to happen when the time of an entry has come. -/
structure Entry where
  label : String
  delay : Int
  commands : List Command
  hold : Option Int

namespace Timetable

/-- A task of the timetable. -/
inductive Task where
  /-- The delay of an entry begins. -/
  | arm (number : Nat)
  /-- The time of an entry has come. -/
  | fire (number : Nat)
  /-- An entry comes to its end. -/
  | close (label : String)
  | turn
  deriving DecidableEq

end Timetable

/-- A scheduler at work. -/
structure Timetable where
  agenda : Agenda Timetable.Task
  timers : Scheduler Entry := {}
  /-- The labels that were written down, each with its moment; the first first. -/
  fired : List (String × Int) := []

namespace Timetable

/-- An empty timetable. -/
def create (now : Int) : Timetable := { agenda := { now } }

/-- Writes a label down. -/
def record (t : Timetable) (label : String) : Timetable :=
  { t with fired := t.fired ++ [(label, t.agenda.now)] }

/-- Schedules an entry. -/
def schedule (t : Timetable) (run node : String) (entry : Entry) : Timetable :=
  { t with
    agenda := t.agenda.post (.arm t.timers.next)
    timers := t.timers.schedule run node entry }

/-- Stops everything: no entry is left, and none goes on. -/
def stop (t : Timetable) : Timetable :=
  { t with agenda := { now := t.agenda.now }, timers := t.timers.clear }

/-- Carries out a command; says how many entries it was about, if that is known. -/
def obey (t : Timetable) : Command → Timetable × Option Nat
  | .schedule run node delay label commands hold =>
    (t.schedule run node ⟨label, delay, commands, hold⟩, none)
  | .cancel run node =>
    ({ t with timers := t.timers.cancel run node }, some (t.timers.countAt run node))
  | .cancelAll run => ({ t with timers := t.timers.cancelAll run }, some (t.timers.count run))
  | .count run => (t, some (t.timers.count run))
  | .stop => (t.stop, none)
  | .senseless => (t, none)

/-- Carries out commands up to the first that makes no sense or stops everything; says whether
there was none. -/
def obeyAll (t : Timetable) : List Command → Timetable × Bool
  | [] => (t, true)
  | .senseless :: _ => (t, false)
  | .stop :: _ => (t.stop, false)
  | command :: commands => (t.obey command).1.obeyAll commands

/-- Carries out an entry whose time has come. -/
def carryOut (t : Timetable) (entry : Entry) : Timetable :=
  match (t.record entry.label).obeyAll entry.commands, entry.hold with
  | (t, true), some hold => { t with agenda := t.agenda.putOff hold (.close entry.label) }
  | (t, _), _ => t

/-- Carries out a task, unless it is the client's. -/
def perform (t : Timetable) : Task → Option Timetable
  | .arm number =>
    match t.timers.find? number with
    | some timer => some { t with agenda := t.agenda.putOff timer.what.delay (.fire number) }
    | none => some t
  | .fire number =>
    match t.timers.fire number with
    | some (timer, timers) => some ({ t with timers }.carryOut timer.what)
    | none => some t
  | .close label => some (t.record (label ++ ":end"))
  | .turn => none

/-- A bound on the number of things that are done in a row; far more than ever come up. -/
def limit : Nat := 1000000000

/-- The timetable as a worker. -/
def worker : Worker Timetable Task :=
  { agenda := Timetable.agenda
    setAgenda := fun t agenda => { t with agenda }
    perform := perform
    turn := .turn
    fuel := fun _ => limit }

/-- Works until nothing is ready; time stands still. -/
def settle (t : Timetable) : Timetable := worker.settle t

/-- Lets some time pass and works until nothing is ready. -/
def advance (t : Timetable) (micros : Int) : Timetable := worker.advance t micros

end Timetable

end Campaign
