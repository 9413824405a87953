import Campaign.Engine.Turn
/-!
# What the engine holds about one run

`Engine.about` gathers all that the engine holds about one run: its record, what is known of it
while it is live, its timers, the walks of it that wait for replies, and what the scheduler told of
its delays.  Every operation of the engine is about one run, and leaves what is held about the
others as it is (`about_log_of_ne` and its kind); the same operation on its own run is said by
equations (`about_log` and its kind).  After this, no proof opens these operations.

* `Engine.desk` is what no operation on records touches: timers, tickets, the walks that wait for
  replies, and what the outside was asked to send.
* `about_fail` and `about_complete` say how a run ends.
-/
namespace Campaign

/-- What the engine holds about one run. -/
structure Share where
  record : Option Run
  live : Option Live
  /-- How often the walk of the run is still to begin. -/
  unstarted : Nat
  timers : List (Timer Continuation)
  sending : List (Nat × Sending)
  /-- What the scheduler told about delays of the run. -/
  scheduled : List Notice

/-- What the engine holds beside its records and its live runs. -/
structure Desk where
  unstarted : List String
  timers : Scheduler Continuation
  sending : List (Nat × Sending)
  tickets : Nat
  /-- The messages that the outside was asked to send and has not taken up. -/
  requests : List Effect

/-- Whether a message is to be sent. -/
def Effect.isSend : Effect → Bool
  | .send _ _ => true
  | _ => false

/-- Whether the scheduler tells in a notice that it schedules a continuation of a run. -/
def Notice.schedules (run : String) (n : Notice) : Bool :=
  n.reporter = .scheduler ∧ n.message = "Scheduling continuation" ∧ n.run = some run

namespace Run

/-- The record with one more entry in its log. -/
def logged (r : Run) (now : Int) (level : LogLevel) (message : String) (payload : Value) : Run :=
  { r with log := r.log ++ [⟨.utc now, level, message, payload⟩] }

/-- The record of a run that completes. -/
def completed (r : Run) (now : Int) : Run :=
  { r.logged now .info "Run completed successfully" .null with
    status := .completed, finishedAt := some (.utc now), currentNodes := [] }

/-- The record of a run that fails. -/
def failed (r : Run) (now : Int) (error : String) : Run :=
  { r.logged now .error ("Run failed: " ++ error) .null with
    status := .failed, finishedAt := some (.utc now), error := some error, currentNodes := [] }

end Run

namespace Engine

variable {e : Engine} {now : Int} {run s : String}

/-- What the engine holds about a run. -/
def about (e : Engine) (run : String) : Share :=
  { record := e.runs.get? run
    live := e.live.get? run
    unstarted := e.unstarted.count run
    timers := e.timers.pending.filter fun t => t.run == run
    sending := e.sending.filter fun entry => entry.2.run == run
    scheduled := e.notices.filter (Notice.schedules run) }

/-- What the engine holds beside its records and its live runs. -/
def desk (e : Engine) : Desk :=
  ⟨e.unstarted, e.timers, e.sending, e.tickets, e.effects.filter Effect.isSend⟩

/-- How many timers were set and how many messages were to be sent so far. -/
def commissions (e : Engine) : Nat := e.timers.next + e.tickets

/-- What leaves the desk alone sets no timer and sends no message. -/
theorem commissions_of_desk {e e' : Engine} (h : e'.desk = e.desk) :
    e'.commissions = e.commissions := by
  have hnext : e'.timers.next = e.timers.next := congrArg (fun d => d.timers.next) h
  have htickets : e'.tickets = e.tickets := congrArg Desk.tickets h
  rw [commissions, hnext, htickets, commissions]

theorem isLive_eq (e : Engine) (run : String) : e.isLive run = (e.about run).live.isSome := rfl

/-! ## Notices and effects -/

@[simp] theorem about_emit (effect : Effect) : (e.emit effect).about s = e.about s := rfl

@[simp] theorem desk_emit {effect : Effect} (h : effect.isSend = false) :
    (e.emit effect).desk = e.desk := by
  simp [desk, emit, List.filter_append, h]

@[simp] theorem desk_note (n : Notice) : (e.note n).desk = e.desk := rfl

theorem about_note (n : Notice) :
    (e.note n).about s = { e.about s with
      scheduled := (e.about s).scheduled ++ if n.schedules s then [n] else [] } := by
  simp only [note, about, List.filter_append]
  split <;> simp_all

@[simp] theorem about_note_of_not {n : Notice} (h : n.schedules s = false) :
    (e.note n).about s = e.about s := by
  simp [about_note, h]

/-! ## Records -/

@[simp] theorem desk_withRuns (r : Except RunStore.UnknownRun RunStore) :
    (e.withRuns r).desk = e.desk := by
  cases r <;> rfl

@[simp] theorem desk_change (f : Run → Run) : (e.change run f).desk = e.desk := desk_withRuns _

@[simp] theorem desk_log (level : LogLevel) (message : String) (payload : Value) :
    (e.log now run level message payload).desk = e.desk := desk_withRuns _

/-- A change to the record of a run, as far as any run is concerned. -/
theorem about_change_eq (f : Run → Run) :
    (e.change run f).about s =
      if s = run then { e.about s with record := (e.about s).record.map f } else e.about s := by
  unfold change RunStore.update
  split
  · rename_i r hr
    simp only [withRuns, about, RunStore.get?, OrderedMap.get?_put]
    split
    · rename_i h
      subst h
      simp only [RunStore.get?] at hr
      simp [hr]
    · rfl
  · rename_i hr
    split
    · rename_i h
      subst h
      simp [withRuns, about, hr]
    · rfl

@[simp] theorem about_change (f : Run → Run) :
    (e.change run f).about run =
      { e.about run with record := (e.about run).record.map f } := by
  simp [about_change_eq]

@[simp] theorem about_change_of_ne (h : s ≠ run) (f : Run → Run) :
    (e.change run f).about s = e.about s := by
  simp [about_change_eq, h]

theorem log_eq_change (level : LogLevel) (message : String) (payload : Value) :
    e.log now run level message payload =
      e.change run fun r => r.logged now level message payload := rfl

@[simp] theorem about_log (level : LogLevel) (message : String) (payload : Value) :
    (e.log now run level message payload).about run = { e.about run with
      record := (e.about run).record.map fun r => r.logged now level message payload } := by
  rw [log_eq_change, about_change]

@[simp] theorem about_log_of_ne (h : s ≠ run) (level : LogLevel) (message : String)
    (payload : Value) : (e.log now run level message payload).about s = e.about s := by
  rw [log_eq_change, about_change_of_ne h]

@[simp] theorem desk_setStatus (next : RunStatus) (f : Run → Run) :
    (e.setStatus run next f).desk = e.desk := by
  unfold setStatus
  split
  · rfl
  · split
    · exact desk_change _
    · rfl

@[simp] theorem about_setStatus_of_ne (h : s ≠ run) (next : RunStatus) (f : Run → Run) :
    (e.setStatus run next f).about s = e.about s := by
  unfold setStatus
  split
  · rfl
  · split
    · exact about_change_of_ne h _
    · rfl

/-- An allowed move of a run whose record is known. -/
theorem about_setStatus {r : Run} {next : RunStatus} (hr : (e.about run).record = some r)
    (hn : next ∈ r.status.allowed) (f : Run → Run) :
    (e.setStatus run next f).about run =
      { e.about run with record := some (f { r with status := next }) } := by
  have hget : e.runs.get? run = some r := hr
  simp only [setStatus, hget, RunStatus.move, hn, if_true, about_change, hr, Option.map_some]

/-! ## Live runs -/

@[simp] theorem desk_withLive (f : Live → Live) : (e.withLive run f).desk = e.desk := rfl

@[simp] theorem about_withLive (f : Live → Live) :
    (e.withLive run f).about run = { e.about run with live := (e.about run).live.map f } := by
  simp [withLive, about, OrderedMap.get?_modify]

@[simp] theorem about_withLive_of_ne (h : s ≠ run) (f : Live → Live) :
    (e.withLive run f).about s = e.about s := by
  simp [withLive, about, OrderedMap.get?_modify, h]

theorem about_withLive_of_none (hl : (e.about run).live = none) (f : Live → Live) :
    (e.withLive run f).about run = e.about run := by
  rw [about_withLive, hl, Option.map_none, ← hl]

@[simp] theorem desk_showNodes : (e.showNodes run).desk = e.desk := by
  unfold showNodes
  split
  · exact desk_change _
  · rfl

@[simp] theorem about_showNodes_of_ne (h : s ≠ run) :
    (e.showNodes run).about s = e.about s := by
  unfold showNodes
  split
  · exact about_change_of_ne h _
  · rfl

theorem about_showNodes {l : Live} (hl : (e.about run).live = some l) :
    (e.showNodes run).about run = { e.about run with
      record := (e.about run).record.map fun r => { r with currentNodes := l.nodes } } := by
  have h : e.live.get? run = some l := hl
  simp only [showNodes, h, about_change]

theorem about_showNodes_of_none (hl : (e.about run).live = none) :
    (e.showNodes run).about run = e.about run := by
  have h : e.live.get? run = none := hl
  simp only [showNodes, h]

@[simp] theorem desk_enter (node : String) : (e.enter run node).desk = e.desk := by
  simp [enter]

@[simp] theorem about_enter_of_ne (h : s ≠ run) (node : String) :
    (e.enter run node).about s = e.about s := by
  simp [enter, h]

@[simp] theorem desk_leave (node : String) : (e.leave run node).desk = e.desk := by
  simp [leave]

@[simp] theorem about_leave_of_ne (h : s ≠ run) (node : String) :
    (e.leave run node).about s = e.about s := by
  simp [leave, h]

/-- A change to the nodes at which a live run is, shown in its record. -/
theorem about_occupied {r : Run} {l : Live} (hr : (e.about run).record = some r)
    (hl : (e.about run).live = some l) (f : Live → Live) :
    ((e.withLive run f).showNodes run).about run = { e.about run with
      record := some { r with currentNodes := (f l).nodes }, live := some (f l) } := by
  rw [about_showNodes (l := f l) (by simp [hl])]
  simp [hr, hl]

/-- A run that has ended is not taken away from any node. -/
theorem about_leave_of_none (hl : (e.about run).live = none) (node : String) :
    (e.leave run node).about run = e.about run := by
  unfold leave
  rw [about_showNodes_of_none (by simp [hl]), about_withLive_of_none hl]

/-! ## Timers -/

theorem about_schedule (node : String) (c : Continuation) :
    { e with timers := e.timers.schedule run node c }.about run = { e.about run with
      timers := (e.about run).timers ++ [⟨e.timers.next, run, node, c⟩] } := by
  simp [about, Scheduler.schedule, List.filter_append]

theorem about_schedule_of_ne (h : s ≠ run) (node : String) (c : Continuation) :
    { e with timers := e.timers.schedule run node c }.about s = e.about s := by
  simp [about, Scheduler.schedule, List.filter_append, Ne.symm h]

/-! ## Ends -/

@[simp] theorem desk_finish : (e.finish run).desk = e.desk := by
  unfold finish
  split
  · exact desk_emit rfl
  · rfl

@[simp] theorem about_finish :
    (e.finish run).about run = { e.about run with live := none } := by
  unfold finish
  split
  · simp [about, emit, OrderedMap.get?_remove]
  · rename_i h
    have hl : e.live.get? run = none := by
      simpa [isLive, OrderedMap.contains] using h
    simp [about, hl]

@[simp] theorem about_finish_of_ne (h : s ≠ run) : (e.finish run).about s = e.about s := by
  unfold finish
  split
  · simp [about, emit, OrderedMap.get?_remove, h]
  · rfl

/-- The timers of other runs among those that stay when the timers of a run are dropped. -/
theorem filter_run_cancelAll_of_ne (h : s ≠ run) (timers : Scheduler Continuation) :
    (timers.cancelAll run).pending.filter (fun t => t.run == s) =
      timers.pending.filter fun t => t.run == s := by
  simp only [Scheduler.cancelAll, List.filter_filter]
  refine List.filter_congr fun t _ => ?_
  by_cases hs : t.run = s <;> simp [hs, h]

@[simp] theorem about_dropTimers :
    (e.dropTimers now run).about run = { e.about run with timers := [] } := by
  have h : (e.timers.cancelAll run).pending.filter (fun t => t.run == run) = [] := by
    simp [Scheduler.cancelAll, List.filter_filter]
  simp only [dropTimers]
  split
  · simp [about, h]
  · rw [about_note_of_not (by simp [Notice.schedules])]
    simp [about, h]

@[simp] theorem about_dropTimers_of_ne (h : s ≠ run) :
    (e.dropTimers now run).about s = e.about s := by
  simp only [dropTimers]
  split
  · simp [about, filter_run_cancelAll_of_ne h]
  · rw [about_note_of_not (by simp [Notice.schedules])]
    simp [about, filter_run_cancelAll_of_ne h]

/-- Dropping the timers of a run touches nothing else on the desk. -/
theorem desk_dropTimers :
    (e.dropTimers now run).desk = { e.desk with timers := e.timers.cancelAll run } := by
  simp only [dropTimers]
  split <;> rfl

theorem commissions_dropTimers : (e.dropTimers now run).commissions = e.commissions := by
  simp only [dropTimers]
  split <;> rfl

/-- A run that fails sets no timer and sends no message. -/
theorem commissions_fail (error : String) : (e.fail now run error).commissions = e.commissions := by
  unfold fail
  extract_lets ended
  split
  · rfl
  · refine (commissions_of_desk (e := e.dropTimers now run) ?_).trans commissions_dropTimers
    simp

/-- How a run fails, where it has not ended before. -/
theorem about_fail {r : Run} (hr : (e.about run).record = some r)
    (ht : r.status.terminal = false) (error : String) :
    (e.fail now run error).about run =
      { e.about run with record := some (r.failed now error), live := none, timers := [] } := by
  have hget : e.runs.get? run = some r := hr
  have hmove : RunStatus.failed ∈ r.status.allowed := by
    revert ht
    cases r.status <;> decide
  simp only [fail, hget, ht, Bool.false_eq_true, if_false]
  rw [about_note_of_not (by simp [Notice.schedules]), about_finish]
  rw [about_setStatus (r := r.logged now .error ("Run failed: " ++ error) .null)
    (by simp [hr]) hmove]
  simp [Run.failed]

/-- A run that has ended does not fail. -/
theorem about_fail_of_terminal {r : Run} (hr : (e.about run).record = some r)
    (ht : r.status.terminal = true) (error : String) :
    (e.fail now run error).about s = e.about s := by
  have hget : e.runs.get? run = some r := hr
  simp only [fail, hget, ht, if_true]
  exact about_note_of_not (by simp [Notice.schedules])

@[simp] theorem about_fail_of_ne (h : s ≠ run) (error : String) :
    (e.fail now run error).about s = e.about s := by
  unfold fail
  extract_lets ended
  split
  · exact about_note_of_not (by simp [Notice.schedules])
  · rw [about_note_of_not (by simp [Notice.schedules])]
    simp [h]

/-- How a run completes, where nothing is left to do. -/
theorem about_complete {r : Run} {l : Live} (hr : (e.about run).record = some r)
    (hl : (e.about run).live = some l) (hs : r.status = .running) (hw : l.walked = true)
    (ho : l.outstanding ≤ 0) :
    (e.complete now run).about run =
      { e.about run with record := some (r.completed now), live := none } := by
  have hget : e.live.get? run = some l := hl
  simp only [complete, hget, hw, ho, decide_true, Bool.and_self, if_true]
  rw [about_note_of_not (by simp [Notice.schedules]), about_finish]
  rw [about_setStatus (r := r.logged now .info "Run completed successfully" .null)
    (by simp [hr]) (by simp [Run.logged, hs, RunStatus.allowed])]
  simp [Run.completed]

/-- A live run with something left to do does not complete. -/
theorem complete_of_busy {l : Live} (hl : (e.about run).live = some l)
    (h : l.walked = false ∨ 0 < l.outstanding) : e.complete now run = e := by
  have hget : e.live.get? run = some l := hl
  have : (l.walked && decide (l.outstanding ≤ 0)) = false := by
    rcases h with h | h
    · simp [h]
    · simp [Int.not_le.2 h]
  simp only [complete, hget, this, Bool.false_eq_true, if_false]

/-- A run that has ended does not complete. -/
theorem complete_of_none (hl : (e.about run).live = none) : e.complete now run = e := by
  have hget : e.live.get? run = none := hl
  simp only [complete, hget]

@[simp] theorem about_complete_of_ne (h : s ≠ run) :
    (e.complete now run).about s = e.about s := by
  unfold complete
  split
  · rfl
  · split
    · rw [about_note_of_not (by simp [Notice.schedules])]
      simp [h]
    · rfl

@[simp] theorem desk_complete : (e.complete now run).desk = e.desk := by
  unfold complete
  split
  · rfl
  · split
    · simp
    · rfl

end Engine

end Campaign
