import Campaign.Agenda
import Campaign.Engine.Worth
import Campaign.Sender.Basic
/-!
# The engine at work

A `Host` gives the engine what it wants: it lets walks begin, sets timers, hands messages to a
sender and brings back the replies, all by way of one agenda.  A client is served in between: its
own wishes stand in the same agenda, and it is told when a run that it waits for has ended.

Everything the engine wants is done in the order in which it asked for it.  A message whose reply
takes no time is answered on the spot.

Whatever a host does is bounded by what its engine is worth and by what is on its agenda
(`Host.budget`).
-/
namespace Campaign

/-- What comes up on the agenda for a client. -/
inductive Wish where
  /-- The client's turn has come. -/
  | turn
  /-- A watch over a run begins. -/
  | watch
  /-- The watch notices that the run has ended. -/
  | noticed
  /-- The watch reports that the run has ended. -/
  | report
  /-- The client has waited long enough. -/
  | deadline
  /-- The watch is called off. -/
  | calledOff
  /-- The watch reports that it was called off. -/
  | offReport
  deriving DecidableEq

/-- A task on the agenda of a host. -/
inductive Job where
  /-- The walk of a run begins. -/
  | begin (run : String)
  /-- The delay of a timer begins. -/
  | arm (timer : Nat) (milliseconds : Int)
  /-- The delay of a timer is over. -/
  | fire (timer : Nat)
  /-- The reply to a message is due. -/
  | reply (ticket : Nat) (outcome : Delivered)
  | wish (w : Wish)
  deriving DecidableEq

/-- The weight of a wish: what it leads to weighs less. -/
def Wish.weight : Wish → Nat
  | .turn => 1
  | .report | .offReport => 2
  | .watch | .noticed | .calledOff => 3
  | .deadline => 4

/-- The weight of a task: it is more than that of an alarm which the task sets. -/
def Job.weight : Job → Nat
  | .begin _ | .fire _ | .reply _ _ => 1
  | .arm _ _ => 4
  | .wish w => w.weight

/-- The engine, its sender, and what is to be done. -/
structure Host where
  engine : Engine
  sender : Sender
  agenda : Agenda Job
  /-- The messages that went out. -/
  sent : List Message := []
  /-- The run whose end a client waits for, and what is to be posted then. -/
  awaited : Option (String × Wish) := none

namespace Host

/-- A host at work from a moment on. -/
def create (sender : Sender) (now : Int) : Host :=
  { engine := { channel := sender.channel }, sender, agenda := { now } }

def now (h : Host) : Int := h.agenda.now

/-- Puts a task at the end of what is ready. -/
def post (h : Host) (job : Job) : Host := { h with agenda := h.agenda.post job }

/-- Lets a turn of the engine take place. -/
def turn (h : Host) (f : Engine → Engine) : Host := { h with engine := f h.engine }

/-- Hands a message to the sender, up to the point where the reply takes time. -/
def deliver (h : Host) (ticket : Nat) (m : Message) : Host × Option Delivered :=
  let (sender, delivery, notices) := h.sender.take h.now m
  let h := { h with sender, sent := h.sent ++ [m] }
  let h := h.turn fun e => notices.foldl Engine.note e
  let h := match delivery.cancels with
    | none => h
    | some run => h.turn fun e => (e.cancelRun h.now run).1
  match delivery.delay with
  | none => (h, some delivery.outcome)
  | some delay =>
    ({ h with agenda := h.agenda.putOff delay (.reply ticket delivery.outcome) }, none)

/-- Brings back the reply to a message. -/
def bringReply (h : Host) (ticket : Nat) (outcome : Delivered) : Host :=
  let (sender, r) := h.sender.conclude h.now outcome
  { h with sender }.turn fun e => e.reply h.now ticket r

/-- Does one thing that the engine wants. -/
def serve (h : Host) : Effect → Host
  | .begin run => h.post (.begin run)
  | .arm timer ms => h.post (.arm timer ms)
  | .ended run =>
    match h.awaited with
    | some (awaited, wish) =>
      if awaited = run then { h with awaited := none }.post (.wish wish) else h
    | none => h
  | .send ticket m =>
    match h.deliver ticket m with
    | (h, some outcome) => h.bringReply ticket outcome
    | (h, none) => h

/-- Does what the engine wants until it wants nothing more.  The fuel bounds the number of things;
what the engine is worth is enough.  What a thing brings about comes before what was wanted after
it. -/
def absorb : Nat → Host → Host
  | 0, h => h
  | fuel + 1, h =>
    match h.engine.effects with
    | [] => h
    | effect :: rest =>
      let h := { h with engine := { h.engine with effects := [] } }.serve effect
      absorb fuel { h with engine := { h.engine with effects := h.engine.effects ++ rest } }

/-- Does all that the engine wants. -/
def oblige (h : Host) : Host := absorb h.engine.worth h

/-- Lets a turn of the engine take place and does what it then wants. -/
def act (h : Host) (f : Engine → Engine) : Host := (h.turn f).oblige

/-- Lets a turn of the engine take place that also says something. -/
def ask {α : Type} (h : Host) (f : Engine → Engine × α) : Host × α :=
  let (engine, a) := f h.engine
  ({ h with engine }.oblige, a)

/-- Lets a turn of the engine take place that says whether it came to anything, and if it did, does
what the engine then wants. -/
def attempt (h : Host) (f : Engine → Engine × Bool) : Host × Bool :=
  match f h.engine with
  | (engine, true) => ({ h with engine }.oblige, true)
  | (engine, false) => ({ h with engine }, false)

/-- Carries out a task, unless it is the client's. -/
def perform (h : Host) : Job → Option Host
  | .begin run => some (h.act fun e => e.begin h.now run)
  | .arm timer ms =>
    if (h.engine.timers.find? timer).isSome then
      some { h with agenda := h.agenda.putOff (ms * 1000) (.fire timer) }
    else some h
  | .fire timer => some (h.act fun e => e.fire h.now timer)
  | .reply ticket outcome => some (h.bringReply ticket outcome).oblige
  | .wish _ => none

/-- A bound on the number of things that there are to do, until a client puts something on the
agenda or a run starts: a thing that the engine wants can lead to a task, and that to an alarm. -/
@[irreducible] def budget (h : Host) : Nat := 5 * h.engine.worth + h.agenda.weight Job.weight

/-- The host as a worker. -/
def worker : Worker Host Job :=
  { agenda := Host.agenda
    setAgenda := fun h agenda => { h with agenda }
    perform := perform
    turn := .wish .turn
    fuel := budget }

/-- Works until something for the client comes up. -/
def work (h : Host) : Host × Option Job := worker.work h

/-- Strikes out the alarms of timers that were cancelled. -/
def purge (h : Host) : Host :=
  { h with agenda := h.agenda.dropAlarms fun
      | .fire timer => (h.engine.timers.find? timer).isNone
      | _ => false }

/-- Works until nothing is ready; time stands still. -/
def settle (h : Host) : Host := (worker.settle h).purge

/-- Lets some time pass and works until nothing is ready. -/
def advance (h : Host) (micros : Int) : Host := (worker.advance h micros).purge

/-- Whether a task belongs to a timer: it is about the timer itself, or about a walk behind it. -/
def ofTimer (h : Host) : Job → Bool
  | .arm _ _ | .fire _ => true
  | .reply ticket _ =>
    match h.engine.sending.lookup ticket with
    | some sending => sending.origin != .trigger
    | none => false
  | _ => false

/-- Stops the timers and the walks behind them.  If there are any, what else is ready is done while
they come to their end. -/
def stopTimers (h : Host) : Host :=
  let others := { h with
    engine := { h.engine with timers := h.engine.timers.clear }
    agenda := h.agenda.drop h.ofTimer }
  if h.agenda.has h.ofTimer then
    let turn (h : Host) : Host := (h.post (.wish .turn)).work.1
    turn (turn (turn others))
  else others

/-- What becomes of waiting for a run. -/
inductive Waited where
  | ended (r : Run)
  | timedOut
  | unknown
  /-- There is nothing left to do, and the client has not had its turn. -/
  | endless

/-- The run that was waited for, as it now is. -/
def waitedFor (h : Host) (run : String) : Host × Waited :=
  (h, match h.engine.runs.get? run with
    | some r => .ended r
    | none => .unknown)

/-- How far the watch over a run has come. -/
inductive Watch where
  | watching
  | seen
  | calledOff
  deriving DecidableEq

/-- Drops from the agenda what is there for the client. -/
def dropWish (h : Host) (w : Wish) : Host :=
  { h with agenda := h.agenda.drop (· == .wish w) }

/-- One step of a watch over a run: what comes up for the client is passed on, or the wait is
over. -/
def watchStep (run : String) (phase : Watch) (h : Host) : Wish → Sum (Watch × Host) (Host × Waited)
  | .watch =>
    if h.engine.isLive run then .inl (phase, { h with awaited := some (run, .noticed) })
    else .inl (.seen, h.post (.wish .report))
  | .noticed | .calledOff =>
    match phase with
    | .calledOff => .inl (phase, h.post (.wish .offReport))
    | _ => .inl (.seen, h.post (.wish .report))
  | .report => .inl (phase, (h.dropWish .deadline).post (.wish .turn))
  | .offReport => .inl (phase, h.post (.wish .turn))
  | .deadline =>
    match phase with
    | .seen => .inr ((h.dropWish .report).waitedFor run)
    | _ =>
      if h.awaited.isSome then
        .inl (.calledOff, { h with awaited := none }.post (.wish .calledOff))
      else .inl (.calledOff, h)
  | .turn =>
    match phase with
    | .calledOff => .inr (h, .timedOut)
    | _ => .inr (h.waitedFor run)

/-- Watches a run until it is the client's turn. -/
def watch (run : String) : Nat → Watch → Host → Host × Waited
  | 0, _, h => (h, .endless)
  | fuel + 1, phase, h =>
    match h.work with
    | (h, some (.wish wish)) =>
      match watchStep run phase h wish with
      | .inl (phase, h) => watch run fuel phase h
      | .inr result => result
    | (h, _) => (h, .endless)

/-- Waits for the end of a run, for some microseconds at most.  A run that has ended is not waited
for. -/
def wait (h : Host) (run : String) (timeout : Option Int) : Host × Waited :=
  if h.engine.isLive run then
    match timeout with
    | none =>
      match { h with awaited := some (run, .turn) }.work with
      | (h, some _) => h.waitedFor run
      | (h, none) => (h, .endless)
    | some micros =>
      if micros ≤ 0 then
        let h := h.post (.wish .calledOff)
        watch run h.budget .calledOff h
      else
        let h := { h with agenda := h.agenda.putOff micros (.wish .deadline) }.post (.wish .watch)
        watch run h.budget .watching h
  else h.waitedFor run

end Host

end Campaign
