import Campaign.Engine.Turn
/-!
# Histories of the engine

A `Turn` is one thing that happens to the engine; a history is a list of turns, each at its moment.
Turns may come in any order and at any time: a walk begins, a reply arrives and a timer fires
whenever the outside lets them, and runs and delays are cancelled at any point between, also while
a message of the run is under way.  The main condition is that a run starts under an id that no run
has (`Turn.Admitted`).

* `Engine.take` is the engine after a turn, `Engine.follow` after a history;
* `Engine.Along` says that a condition holds at every turn of a history;
* `Engine.Reachable` are the engines that some history leads to.
-/
namespace Campaign

/-- Something that happens to the engine. -/
inductive Turn where
  | start (run : String) (flow : Flow) (event : Event)
  /-- The walk of a run begins. -/
  | begin (run : String)
  /-- The reply to the message of a ticket arrives. -/
  | reply (ticket : Nat) (reply : Reply)
  /-- A timer fires. -/
  | fire (timer : Nat)
  | cancelRun (run : String)
  | cancelDelay (run node : String)
  | cancelFlowRuns (flowId : String)
  /-- The outside has taken up what is wanted of it; this much is left. -/
  | served (effects : List Effect)
  /-- The sender tells the operators something. -/
  | told (notice : Notice)

/-- Whether a turn can happen to an engine: ids of runs are new, the outside leaves nothing that it
was not asked for, and a sender speaks as such. -/
def Turn.Admitted (e : Engine) : Turn → Prop
  | .start run _ _ => e.runs.get? run = none
  | .served effects => ∀ ticket message, .send ticket message ∈ effects → ticket < e.tickets
  | .told notice => notice.reporter = .sender
  | _ => True

namespace Engine

/-- The engine after a turn. -/
def take (e : Engine) (now : Int) : Turn → Engine
  | .start run flow event => e.start now run flow event
  | .begin run => e.begin now run
  | .reply ticket reply => e.reply now ticket reply
  | .fire timer => e.fire now timer
  | .cancelRun run => (e.cancelRun now run).1
  | .cancelDelay run node => (e.cancelDelay now run node).1
  | .cancelFlowRuns flowId => (e.cancelFlowRuns now flowId).1
  | .served effects => { e with effects }
  | .told notice => e.note notice

/-- The engine after a history. -/
def follow (e : Engine) : List (Int × Turn) → Engine
  | [] => e
  | (now, t) :: history => (e.take now t).follow history

/-- Whether a condition on the engine and the turn holds all along a history. -/
def Along (p : Engine → Turn → Prop) (e : Engine) : List (Int × Turn) → Prop
  | [] => True
  | (now, t) :: history => p e t ∧ (e.take now t).Along p history

/-- Whether all turns of a history can happen. -/
def Admits (e : Engine) (history : List (Int × Turn)) : Prop :=
  e.Along (fun e t => t.Admitted e) history

/-- The engines that some history leads to. -/
inductive Reachable : Engine → Prop
  | idle (channel : String) : Reachable { channel }
  | take {e : Engine} {t : Turn} (now : Int) :
      Reachable e → t.Admitted e → Reachable (e.take now t)

/-- What every turn keeps is kept by a history. -/
theorem follow_induction {p : Engine → Prop}
    (step : ∀ (e : Engine) (now : Int) (t : Turn), p e → t.Admitted e → p (e.take now t))
    {e : Engine} {history : List (Int × Turn)} (h : p e) (ha : e.Admits history) :
    p (e.follow history) := by
  induction history generalizing e with
  | nil => exact h
  | cons turn history ih => exact ih (step e turn.1 turn.2 h ha.1) ha.2

theorem Reachable.follow {e : Engine} {history : List (Int × Turn)} (h : e.Reachable)
    (ha : e.Admits history) : (e.follow history).Reachable :=
  follow_induction (fun _ now _ h ha => .take now h ha) h ha

/-- Every turn of a history can happen where it does. -/
theorem Admits.at {e : Engine} {before after : List (Int × Turn)} {now : Int} {t : Turn}
    (ha : e.Admits (before ++ (now, t) :: after)) :
    e.Admits before ∧ t.Admitted (e.follow before) := by
  induction before generalizing e with
  | nil => exact ⟨trivial, ha.1⟩
  | cons turn before ih =>
    obtain ⟨hbefore, hturn⟩ := ih ha.2
    exact ⟨⟨ha.1, hbefore⟩, hturn⟩

/-- To cancel the runs of a flow is to cancel its live runs, one after the other. -/
theorem take_cancelFlowRuns (e : Engine) (now : Int) (flowId : String) :
    e.take now (.cancelFlowRuns flowId) =
      e.follow ((e.liveRunsOf flowId).map fun run => (now, .cancelRun run)) := by
  simp only [take, cancelFlowRuns]
  generalize e.liveRunsOf flowId = runs
  induction runs generalizing e with
  | nil => rfl
  | cons run runs ih => simp only [List.foldl_cons, List.map_cons, Engine.follow, take, ih]

/-- What all other turns keep is kept by a turn that cancels the runs of a flow. -/
theorem take_cancelFlowRuns_induction {p : Engine → Prop}
    (step : ∀ (e : Engine) (now : Int) (run : String), p e → p (e.take now (.cancelRun run)))
    {e : Engine} (h : p e) (now : Int) (flowId : String) :
    p (e.take now (.cancelFlowRuns flowId)) := by
  rw [take_cancelFlowRuns]
  generalize e.liveRunsOf flowId = runs
  induction runs generalizing e with
  | nil => exact h
  | cons run runs ih => exact ih (step e now run h)

end Engine

/-! ## A flow to look at -/

/-- A flow that greets a customer at once, and a second time after two hours. -/
def greeting : Flow :=
  let hello : List (String × Value) :=
    [("to_field", .text "ann@example.org"), ("body", .text "Hello")]
  let wait : Value := .object [("amount", .int 2), ("unit", .text "hours")]
  { id := "f", name := "Greeting", active := true
    nodes := [⟨"t", "Order", .trigger, []⟩, ⟨"a", "Hello", .action, hello⟩,
      ⟨"d", "Wait", .delay, [("delay", wait)]⟩, ⟨"b", "Again", .action, hello⟩]
    edges := [⟨"1", "t", "a", none, none⟩, ⟨"2", "t", "d", none, none⟩, ⟨"3", "d", "b", none, none⟩]
    createdAt := .utc 0, updatedAt := .utc 0 }

/-- An order without further data. -/
def order : Event := ⟨.newOrder, []⟩

end Campaign
