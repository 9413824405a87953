import Campaign.Engine.Walk
/-!
# Turns of the engine

What the engine does when something happens: a run is started (`start`) and its walk begins
(`begin`), a reply arrives (`reply`), a timer fires (`fire`), a run or a delay is cancelled.  Every
turn is carried out in one go at one moment, and leaves the engine waiting for the next.
-/
namespace Campaign.Engine

/-- The message with which operators are told that a walk failed. -/
def failureNotice (now : Int) (run flowId : String) (failure : Failure) : Origin → Notice
  | .trigger =>
    { time := now, gravity := .error, message := "Run failed", run := some run
      flow := some flowId, failure := some failure }
  | .delay node =>
    { time := now, gravity := .error, message := "Delayed branch failed", run := some run
      node := some node, failure := some failure }

/-- Marks the end of a walk: the first walk is done, or one delay less is outstanding. -/
def Origin.settle : Origin → Live → Live
  | .trigger, l => { l with walked := true }
  | .delay _, l => { l with outstanding := l.outstanding - 1 }

/-- What follows when a walk has come to a halt. -/
def conclude (now : Int) (run flowId : String) (origin : Origin) : Engine × Halt → Engine
  | (e, .ended) => (e.withLive run (Origin.settle origin)).complete now run
  | (e, .failed failure) =>
    let e := e.note (failureNotice now run flowId failure origin)
    let e := match origin with
      | .trigger => e
      | .delay _ => e.withLive run (Origin.settle origin)
    e.fail now run failure.reason
  | (e, .sending node path rest message) =>
    let sending : Sending := ⟨run, flowId, origin, node, path, rest, message⟩
    { e with tickets := e.tickets + 1, sending := e.sending ++ [(e.tickets, sending)] }.emit
      (.send e.tickets message)

/-- Goes on with a walk of a run. -/
def proceed (e : Engine) (now : Int) (run flowId : String) (origin : Origin) (stops : List Stop) :
    Engine :=
  match e.live.get? run with
  | some l => conclude now run flowId origin (walk now run l.flow l.context e stops)
  | none => conclude now run flowId origin (e, .ended)

/-- Starts a run of a flow under an id: the run is recorded and becomes live, and its walk is to
begin. -/
def start (e : Engine) (now : Int) (run : String) (flow : Flow) (event : Event) : Engine :=
  let record : Run := { id := run, flowId := flow.id, startedAt := .utc now }
  let e := { e with
    runs := e.runs.create record
    live := e.live.put run { flow, event }
    unstarted := e.unstarted ++ [run] }
  ((e.log now run .info ("Starting run for flow: " ++ flow.name) .null).emit (.begin run)).note
    { time := now, message := "Run started", run := some run, flow := some flow.id }

/-- Lets the walk of a run begin at the first trigger of its flow. -/
def begin (e : Engine) (now : Int) (run : String) : Engine :=
  if run ∈ e.unstarted then
    let e := { e with unstarted := e.unstarted.erase run }
    match e.live.get? run with
    | none => e
    | some l =>
      let e := e.setStatus run .running id
      match l.flow.triggers with
      | [] => e.fail now run "No TRIGGER node found"
      | trigger :: _ =>
        let e := e.log now run .info ("Triggered by: " ++ trigger.label)
          (.object [("payload", l.event.wire)])
        e.proceed now run l.flow.id .trigger
          (l.flow.behind trigger.id [trigger.id] .everywhere)
  else e

/-- What follows when the reply to a message has arrived: the node is left, and the walk goes on or
fails.  A run that has ended takes no notice of a message that went out. -/
def afterReply (e : Engine) (now : Int) (s : Sending) (reply : Reply) : Engine :=
  let failed (failure : Failure) : Engine :=
    conclude now s.run s.flowId s.origin (e.failNode now s.run s.node failure, .failed failure)
  match e.live.get? s.run, reply with
  | none, .failed failure => failed failure
  | none, _ => conclude now s.run s.flowId s.origin (e, .ended)
  | some _, .failed failure => failed failure
  | some _, .declined =>
    failed (.send ("Message send to " ++ s.message.recipient ++ " was not accepted"))
  | some l, .accepted id =>
    let result : Value := .object [("result", .object [("ok", .bool true), ("id", .text id)])]
    let e := e.log now s.run .info ("Sent message via " ++ e.channel) result
    let e := e.leave s.run s.node.id
    e.proceed now s.run s.flowId s.origin (l.flow.behind s.node.id s.path .everywhere ++ s.rest)

/-- Takes the reply to the message of a ticket. -/
def reply (e : Engine) (now : Int) (ticket : Nat) (r : Reply) : Engine :=
  match e.sending.lookup ticket with
  | none => e
  | some s =>
    { e with sending := e.sending.filter fun entry => entry.1 != ticket }.afterReply now s r

/-- Lets a timer fire, if it was not cancelled: its delay is over, and the branch behind it goes
on. -/
def fire (e : Engine) (now : Int) (number : Nat) : Engine :=
  match e.timers.fire number with
  | none => e
  | some (timer, timers) =>
    let e := { e with timers }
    match e.live.get? timer.run with
    | none => e
    | some l =>
      let node := timer.what.node
      let e := e.leave timer.run node.id
      let e := e.log now timer.run .info ("Delay completed for " ++ node.label) .null
      e.proceed now timer.run l.flow.id (.delay node.id)
        (l.flow.behind node.id timer.what.path .everywhere)

/-- Cancels a live run: its timers are dropped and it fails.  Says whether it was live. -/
def cancelRun (e : Engine) (now : Int) (run : String) : Engine × Bool :=
  let count := e.timers.count run
  let e := e.dropTimers now run
  if e.isLive run then
    ((e.withLive run fun l => { l with outstanding := l.outstanding - count }).fail now run
      cancelled, true)
  else (e, false)

/-- Cancels the delays of a run at a node, and says how many they were. -/
def cancelDelay (e : Engine) (now : Int) (run node : String) : Engine × Nat :=
  let count := e.timers.countAt run node
  let e := { e with timers := e.timers.cancel run node }
  if e.isLive run && count ≠ 0 then
    let e := e.withLive run fun l => { l with outstanding := l.outstanding - count }
    let e := e.leaveTimes run node count
    let e := e.log now run .warn ("Delay cancelled for node " ++ node) .null
    (e.complete now run, count)
  else (e, count)

/-- The live runs of a flow, in the order in which they started. -/
def liveRunsOf (e : Engine) (flowId : String) : List String :=
  (e.live.entries.filter fun entry => entry.2.flow.id == flowId).map Prod.fst

/-- Cancels the live runs of a flow, and says which they were. -/
def cancelFlowRuns (e : Engine) (now : Int) (flowId : String) : Engine × List String :=
  let runs := e.liveRunsOf flowId
  (runs.foldl (fun e run => (e.cancelRun now run).1) e, runs)

end Campaign.Engine
