import Campaign.Event
import Campaign.Flow.Basic
import Campaign.Notice
import Campaign.Run.Store
import Campaign.Scheduler
import Campaign.Sender.Message
/-!
# The state of the engine

An engine carries out runs.  A run is live from its start until it is completed or failed; while it
is live the engine knows the flow it follows, the event that started it, and where it is.

Runs go on in turns.  Between turns the engine waits: for walks to begin, for replies to messages
(`sending`), and for timers.  What it wants from the outside is put into `effects`, in order: to
begin a walk, to set a timer, to send a message; and it tells there when a run has ended.

* `log`, `enter`, `leave` and `setStatus` change the record of a run;
* `complete` ends a live run when nothing is left to do, `fail` ends it with an error.
-/
namespace Campaign

/-- A run that has not ended. -/
structure Live where
  /-- The flow as it was when the run started. -/
  flow : Flow
  event : Event
  /-- The delays that were begun and whose branches have not come to an end. -/
  outstanding : Int := 0
  /-- Whether the walk from the trigger has come to an end. -/
  walked : Bool := false
  /-- The nodes at which the run is, each as often as it is there. -/
  occupied : List String := []

namespace Live

/-- The data that conditions and actions refer to. -/
def context (l : Live) : Value := .object l.event.context

/-- The nodes at which the run is, each once, in order. -/
def nodes (l : Live) : List String := (l.occupied.mergeSort (· ≤ ·)).eraseDups

end Live

/-- A node to be processed, and the nodes that were processed on the way to it. -/
structure Stop where
  node : String
  path : List String
  deriving DecidableEq

/-- Where a walk begins. -/
inductive Origin where
  /-- At the trigger of the flow. -/
  | trigger
  /-- Behind a delay that is over. -/
  | delay (node : String)
  deriving DecidableEq

/-- A walk that waits for the reply to a message. -/
structure Sending where
  run : String
  flowId : String
  origin : Origin
  /-- The node that sends. -/
  node : Node
  /-- The nodes processed on this branch, the one that sends included. -/
  path : List String
  /-- What the walk has still to do. -/
  rest : List Stop
  message : Message

/-- What happens when a delay is over. -/
structure Continuation where
  /-- The delay node. -/
  node : Node
  /-- The nodes processed on this branch, the delay included. -/
  path : List String

/-- What the engine wants from the outside, or tells it. -/
inductive Effect where
  /-- Let the walk of a run begin. -/
  | begin (run : String)
  /-- Let the timer of this number fire after some milliseconds. -/
  | arm (timer : Nat) (milliseconds : Int)
  /-- Send a message, and reply under this ticket. -/
  | send (ticket : Nat) (message : Message)
  /-- A run has ended. -/
  | ended (run : String)
  deriving DecidableEq

/-- What should never happen: a record is missing, or a status cannot follow another. -/
inductive Mishap where
  | unknownRun (id : String)
  | illegalMove (move : RunStatus.IllegalMove)
  deriving DecidableEq

/-- The state of the engine between turns. -/
structure Engine where
  /-- The name of the channel over which messages go out. -/
  channel : String
  runs : RunStore := {}
  live : OrderedMap Live := .empty
  /-- The runs whose walk has not begun. -/
  unstarted : List String := []
  timers : Scheduler Continuation := {}
  /-- The walks that wait for replies, by ticket. -/
  sending : List (Nat × Sending) := []
  /-- The next ticket. -/
  tickets : Nat := 0
  /-- What is wanted from the outside, the first first. -/
  effects : List Effect := []
  /-- What operators are told, the first first. -/
  notices : List Notice := []
  mishaps : List Mishap := []

namespace Engine

/-- The text with which a cancelled run fails. -/
def cancelled : String := "Run cancelled"

/-- Whether a run is live. -/
def isLive (e : Engine) (run : String) : Bool := e.live.contains run

/-- The runs that are live, in the order in which they started. -/
def liveRuns (e : Engine) : List String := e.live.keys

/-- Asks something of the outside. -/
def emit (e : Engine) (effect : Effect) : Engine := { e with effects := e.effects ++ [effect] }

/-- Tells the operators something. -/
def note (e : Engine) (notice : Notice) : Engine := { e with notices := e.notices ++ [notice] }

/-- Puts a changed store in place, or notes that there is no record of a run. -/
def withRuns (e : Engine) : Except RunStore.UnknownRun RunStore → Engine
  | .ok runs => { e with runs }
  | .error unknown => { e with mishaps := e.mishaps ++ [.unknownRun unknown.id] }

/-- Changes the record of a run. -/
def change (e : Engine) (run : String) (f : Run → Run) : Engine := e.withRuns (e.runs.update run f)

/-- Adds an entry to the log of a run. -/
def log (e : Engine) (now : Int) (run : String) (level : LogLevel) (message : String)
    (payload : Value) : Engine :=
  e.withRuns (e.runs.appendLog run ⟨.utc now, level, message, payload⟩)

/-- Moves a run to another status and changes its record in other ways. -/
def setStatus (e : Engine) (run : String) (next : RunStatus) (f : Run → Run) : Engine :=
  match e.runs.get? run with
  | none => { e with mishaps := e.mishaps ++ [.unknownRun run] }
  | some r =>
    match r.status.move next with
    | .ok status => e.change run fun r => f { r with status }
    | .error move => { e with mishaps := e.mishaps ++ [.illegalMove move] }

/-- Changes what is known of a live run. -/
def withLive (e : Engine) (run : String) (f : Live → Live) : Engine :=
  { e with live := e.live.modify run f }

/-- Writes the nodes at which a live run is into its record. -/
def showNodes (e : Engine) (run : String) : Engine :=
  match e.live.get? run with
  | some l => e.change run fun r => { r with currentNodes := l.nodes }
  | none => e

/-- Brings a live run to a node. -/
def enter (e : Engine) (run node : String) : Engine :=
  (e.withLive run fun l => { l with occupied := node :: l.occupied }).showNodes run

/-- Takes a live run away from a node, once; a run that has ended is left as it is. -/
def leave (e : Engine) (run node : String) : Engine :=
  (e.withLive run fun l => { l with occupied := l.occupied.erase node }).showNodes run

/-- Takes a live run away from a node a number of times. -/
def leaveTimes (e : Engine) (run node : String) : Nat → Engine
  | 0 => e
  | n + 1 => (e.leave run node).leaveTimes run node n

/-- Strikes a run from those that are live. -/
def finish (e : Engine) (run : String) : Engine :=
  if e.isLive run then { e with live := e.live.remove run }.emit (.ended run) else e

/-- Drops the timers of a run. -/
def dropTimers (e : Engine) (now : Int) (run : String) : Engine :=
  let count := e.timers.count run
  let e := { e with timers := e.timers.cancelAll run }
  if count = 0 then e
  else e.note { time := now, reporter := .scheduler, message := "Cancelled continuations"
                run := some run, extra := [("count", .int count)] }

/-- Completes a live run if nothing is left to do: its first walk has come to an end, and so have
the branches behind all its delays. -/
def complete (e : Engine) (now : Int) (run : String) : Engine :=
  match e.live.get? run with
  | none => e
  | some l =>
    if l.walked && l.outstanding ≤ 0 then
      (((e.log now run .info "Run completed successfully" .null).setStatus run .completed
        fun r => { r with finishedAt := some (.utc now), currentNodes := [] }).finish run).note
        { time := now, message := "Run completed", run := some run, flow := some l.flow.id }
    else e

/-- Ends a run with an error: its timers are dropped, and its record says what went wrong.  A run
that has ended already is left as it is. -/
def fail (e : Engine) (now : Int) (run error : String) : Engine :=
  let ended := match e.runs.get? run with
    | none => true
    | some r => r.status.terminal
  if ended then
    e.note { time := now, gravity := .warning, message := "Ignoring failure for finished run"
             run := some run, extra := [("error", .text error)] }
  else
    (((((e.dropTimers now run).log now run .error ("Run failed: " ++ error) .null).setStatus run
      .failed fun r => { r with finishedAt := some (.utc now), error := some error
                                currentNodes := [] }).finish run)).note
      { time := now, gravity := .warning, message := "Run failed", run := some run
        extra := [("error", .text error)] }

end Engine

end Campaign
