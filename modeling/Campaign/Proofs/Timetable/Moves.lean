import Campaign.Proofs.Timetable.Incidents
import Campaign.Proofs.Worker
/-!
# How a timetable goes on

A timetable goes on by moves: commands are given from the outside, the client sleeps for a while,
and the next thing on the agenda is done.  Commands may come between any two moves; that is also how
an entry gives commands after a pause.  And the worker may have alarms of one moment change places,
unless it is a steady one (`Move.Steady`).

* `Timetable.take` and `Timetable.follow` say what moves do;
* `Timetable.told` and `Timetable.past` say what happens meanwhile, and what is written down is just
  what started and ended (`fired_follow`);
* `Timetable.Works` says once what can happen when the next thing on the agenda is done;
* to settle and to advance are sequences of moves (`leads_settle`, `leads_advance`).
-/
namespace Campaign

/-- Whether all delays of a command are positive, also those of the commands that are carried out
when its time has come. -/
inductive Command.Positive : Command → Prop
  | schedule {run node : String} {delay : Int} {label : String} {commands : List Command}
      {hold : Option Int} : 0 < delay → (∀ c ∈ commands, c.Positive) →
      Positive (.schedule run node delay label commands hold)
  | cancel (run node : String) : Positive (.cancel run node)
  | cancelAll (run : String) : Positive (.cancelAll run)
  | count (run : String) : Positive (.count run)
  | stop : Positive .stop
  | senseless : Positive .senseless

namespace Timetable

/-- What happens when a command is carried out. -/
def heard (t : Timetable) (c : Command) : List Incident :=
  let count := (t.obey c).2.getD 0
  match c with
  | .schedule run node delay label commands hold =>
    [.scheduled ⟨t.timers.next, run, node, label, delay, commands, hold⟩ t.agenda.now]
  | .cancel run node => [.cancelled run node count]
  | .cancelAll run => [.cancelledAll run count]
  | .count run => [.counted run count]
  | .stop => [.stopped]
  | .senseless => []

/-- What happens when commands are carried out up to the first that makes no sense or stops
everything. -/
def heardAll (t : Timetable) : List Command → List Incident
  | [] => []
  | .senseless :: _ => []
  | .stop :: _ => [.stopped]
  | command :: commands => t.heard command ++ (t.obey command).1.heardAll commands

/-- The timetable when the next thing on the agenda has been done. -/
def work (t : Timetable) : Timetable :=
  match t.agenda.next with
  | .perform task agenda => ({ t with agenda }.perform task).getD { t with agenda }
  | .pass agenda => { t with agenda }
  | .nothing => t

/-- What happens when the next thing on the agenda is done. -/
def worked (t : Timetable) : List Incident :=
  match t.agenda.next with
  | .perform (.fire number) agenda =>
    match t.timers.fire number with
    | some (timer, timers) => .started timer agenda.now ::
        ({ t with agenda, timers }.record timer.what.label).heardAll timer.what.commands
    | none => []
  | .perform (.close label) agenda => [.ended label agenda.now]
  | _ => []

/-- How a timetable goes on. -/
inductive Move where
  /-- A command is given from the outside. -/
  | obey (c : Command)
  /-- The client sleeps for some microseconds. -/
  | sleep (micros : Int)
  /-- The next thing on the agenda is done. -/
  | work
  /-- The alarm at a place and the one behind it change places, if they are due at one moment. -/
  | exchange (n : Nat)

/-- Whether all delays are positive. -/
def Move.Positive : Move → Prop
  | .obey c => c.Positive
  | _ => True

/-- Whether alarms of one moment stay in the order in which they were set. -/
def Move.Steady : Move → Prop
  | .exchange _ => False
  | _ => True

/-- The timetable after a move. -/
def take (t : Timetable) : Move → Timetable
  | .obey c => (t.obey c).1
  | .sleep micros => { t with agenda := t.agenda.putOff micros .turn }
  | .work => t.work
  | .exchange n => { t with agenda := t.agenda.exchange n }

/-- What happens in a move. -/
def told (t : Timetable) : Move → List Incident
  | .obey c => t.heard c
  | .sleep _ | .exchange _ => []
  | .work => t.worked

/-- The timetable after a number of moves. -/
def follow (t : Timetable) : List Move → Timetable
  | [] => t
  | move :: moves => (t.take move).follow moves

/-- What happens in a number of moves, the first first. -/
def past (t : Timetable) : List Move → List Incident
  | [] => []
  | move :: moves => t.told move ++ (t.take move).past moves

variable {t t' : Timetable} {moves : List Move}

/-! ## One thing that is done -/

/-- What can happen when the next thing on the agenda is done. -/
inductive Works (t : Timetable) : Timetable → List Incident → Prop
  | nothing : t.agenda.next = .nothing → Works t t []
  | pass {agenda : Agenda Task} : t.agenda.next = .pass agenda → Works t { t with agenda } []
  /-- The task is the client's, or is about a timer that is not there. -/
  | dropped {task : Task} {agenda : Agenda Task} : t.agenda.next = .perform task agenda →
      (∀ number, task = .arm number ∨ task = .fire number → t.timers.find? number = none) →
      (∀ label, task ≠ .close label) → Works t { t with agenda } []
  | armed {number : Nat} {timer : Timer Entry} {agenda : Agenda Task} :
      t.agenda.next = .perform (.arm number) agenda → t.timers.find? number = some timer →
      Works t { t with agenda := agenda.putOff timer.what.delay (.fire number) } []
  | started {number : Nat} {timer : Timer Entry} {timers : Scheduler Entry}
      {agenda : Agenda Task} : t.agenda.next = .perform (.fire number) agenda →
      t.timers.fire number = some (timer, timers) →
      Works t ({ t with agenda, timers }.carryOut timer.what) (.started timer agenda.now ::
        ({ t with agenda, timers }.record timer.what.label).heardAll timer.what.commands)
  | closed {label : String} {agenda : Agenda Task} :
      t.agenda.next = .perform (.close label) agenda →
      Works t ({ t with agenda }.record (label ++ ":end")) [.ended label agenda.now]

theorem works (t : Timetable) : Works t t.work t.worked := by
  unfold work worked
  cases hnext : t.agenda.next with
  | nothing => exact .nothing hnext
  | pass agenda => exact .pass hnext
  | perform task agenda =>
    cases task with
    | arm number =>
      cases hfind : t.timers.find? number with
      | none =>
        simp only [perform, hfind]
        exact .dropped hnext (by simp [hfind]) (by simp)
      | some timer =>
        simp only [perform, hfind]
        exact .armed hnext hfind
    | fire number =>
      cases hfire : t.timers.fire number with
      | none =>
        simp only [perform, hfire]
        have hfind : t.timers.find? number = none := by simpa [Scheduler.fire] using hfire
        exact .dropped hnext (by simp [hfind]) (by simp)
      | some fired =>
        obtain ⟨timer, timers⟩ := fired
        simp only [perform, hfire]
        exact .started hnext hfire
    | close label => exact .closed hnext
    | turn => exact .dropped hnext (by simp) (by simp)

/-- Once its commands have been carried out an entry may go on for a while. -/
theorem carryOut_cases (t : Timetable) (entry : Entry) :
    let (t', ok) := (t.record entry.label).obeyAll entry.commands
    (∃ hold, entry.hold = some hold ∧ ok = true ∧ t.carryOut entry =
      { t' with agenda := t'.agenda.putOff hold (.close entry.label) }) ∨
    (entry.hold = none ∨ ok = false) ∧ t.carryOut entry = t' := by
  unfold carryOut
  generalize (t.record entry.label).obeyAll entry.commands = obeyed
  obtain ⟨t', ok⟩ := obeyed
  cases ok with
  | false => exact .inr ⟨.inr rfl, rfl⟩
  | true =>
    cases entry.hold with
    | none => exact .inr ⟨.inl rfl, rfl⟩
    | some hold => exact .inl ⟨hold, rfl, rfl, rfl⟩

/-! ## Settling and advancing -/

theorem follow_append (t : Timetable) (moves moves' : List Move) :
    t.follow (moves ++ moves') = (t.follow moves).follow moves' := by
  induction moves generalizing t with
  | nil => rfl
  | cons move moves ih => exact ih (t.take move)

/-- Whatever the worker does is a move. -/
theorem work_of_does (h : worker.Does t t') : t' = t.work := by
  cases h with
  | perform hnext hperform =>
    change t.agenda.next = _ at hnext
    simp only [work, hnext]
    exact (congrArg (Option.getD · _) hperform).symm
  | hand hnext hperform =>
    change t.agenda.next = _ at hnext
    simp only [work, hnext]
    exact (congrArg (Option.getD · _) hperform).symm
  | pass hnext =>
    change t.agenda.next = _ at hnext
    simp only [work, hnext]
    rfl

/-- Whether some moves of the client and of a steady worker lead from one timetable to another. -/
def Leads (t t' : Timetable) : Prop :=
  ∃ moves : List Move, (∀ m ∈ moves, m.Positive ∧ m.Steady) ∧ t' = t.follow moves

theorem Leads.take (h : Leads t t') (move : Move) (hm : move.Positive ∧ move.Steady) :
    Leads t (t'.take move) := by
  obtain ⟨moves, hmoves, rfl⟩ := h
  refine ⟨moves ++ [move], fun m hm' => ?_, (follow_append t moves [move]).symm⟩
  rcases List.mem_append.1 hm' with hm' | hm'
  · exact hmoves m hm'
  · rwa [List.mem_singleton.1 hm']

theorem leads_does (t' t'' : Timetable) (h : Leads t t') (hd : worker.Does t' t'') :
    Leads t t'' := by
  rw [work_of_does hd]
  exact h.take .work ⟨trivial, trivial⟩

theorem leads_turn (t' : Timetable) (h : Leads t t') : Leads t (worker.post t' .turn) :=
  h.take (.sleep 0) ⟨trivial, trivial⟩

theorem leads_settle (t : Timetable) : Leads t t.settle :=
  Worker.kept_settle (w := worker) (p := Leads t) leads_does leads_turn ⟨[], by simp, rfl⟩

theorem leads_advance (t : Timetable) (micros : Int) : Leads t (t.advance micros) :=
  Worker.kept_advance (w := worker) (p := Leads t) leads_does leads_turn
    ⟨[.sleep micros], by simp [Move.Positive, Move.Steady], rfl⟩

/-! ## What is written down -/

/-- What is written down of an incident. -/
def Incident.line? : Incident → Option (String × Int)
  | .started timer moment => some (timer.what.label, moment)
  | .ended label moment => some (label ++ ":end", moment)
  | _ => none

theorem fired_obey (t : Timetable) (c : Command) :
    (t.obey c).1.fired = t.fired ++ (t.heard c).filterMap Incident.line? := by
  cases c <;> simp [obey, heard, schedule, stop, Incident.line?]

theorem fired_obeyAll (t : Timetable) (commands : List Command) :
    (t.obeyAll commands).1.fired =
      t.fired ++ (t.heardAll commands).filterMap Incident.line? := by
  induction commands generalizing t with
  | nil => simp [obeyAll, heardAll]
  | cons c commands ih =>
    cases c with
    | senseless => simp [obeyAll, heardAll]
    | stop => simp [obeyAll, heardAll, stop, Incident.line?]
    | _ => simp [obeyAll, heardAll, ih, fired_obey]

theorem fired_carryOut (t : Timetable) (entry : Entry) : (t.carryOut entry).fired =
    (t.record entry.label).fired ++
      ((t.record entry.label).heardAll entry.commands).filterMap Incident.line? := by
  rw [← fired_obeyAll]
  rcases carryOut_cases t entry with ⟨hold, -, -, heq⟩ | ⟨-, heq⟩ <;> rw [heq]

theorem fired_works {incidents : List Incident} (h : Works t t' incidents) :
    t'.fired = t.fired ++ incidents.filterMap Incident.line? := by
  cases h with
  | nothing => simp
  | pass => simp
  | dropped => simp
  | armed => simp
  | started hnext hfire => simp [fired_carryOut, record, Incident.line?]
  | closed hnext => simp [record, Incident.line?]

/-- What is written down is what starts and what comes to its end. -/
theorem fired_follow (t : Timetable) (moves : List Move) :
    (t.follow moves).fired = t.fired ++ (t.past moves).filterMap Incident.line? := by
  induction moves generalizing t with
  | nil => simp [follow, past]
  | cons move moves ih =>
    have htake : (t.take move).fired = t.fired ++ (t.told move).filterMap Incident.line? := by
      cases move with
      | obey c => exact fired_obey t c
      | sleep micros => simp [take, told]
      | exchange n => simp [take, told]
      | work => exact fired_works t.works
    rw [follow, past, ih, htake, List.filterMap_append, List.append_assoc]

end Timetable

end Campaign
