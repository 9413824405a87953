import Campaign.Proofs.Engine.Waning
/-!
# What turns leave as it is

As long as no run starts some things stay as they are (`Engine.frame`): the channel, which runs
belong to which flow, and of every record the id, the flow and the start.  Every operation keeps
them (`frame_log` and its kind), and so does every turn (`frame_take`).

A start adds a record under the id of its run; so every record is kept under its own id
(`Reachable.filed`).
-/
namespace Campaign

/-- What of a record never changes: its id, its flow and its start. -/
def Run.title (r : Run) : String × String × Timestamp := (r.id, r.flowId, r.startedAt)

/-- What stays as it is as long as no run starts. -/
structure Frame where
  channel : String
  byFlow : OrderedMap (List String)
  titles : String → Option (String × String × Timestamp)

namespace Engine

variable {e : Engine} {now : Int} {run node : String}

/-- What stays as it is as long as no run starts. -/
def frame (e : Engine) : Frame :=
  ⟨e.channel, e.runs.byFlow, fun run => (e.runs.get? run).map Run.title⟩

/-! ## Operations -/

theorem frame_change {f : Run → Run} (hf : ∀ r, (f r).title = r.title) :
    (e.change run f).frame = e.frame := by
  unfold change RunStore.update
  split
  · rename_i r hr
    refine congrArg (Frame.mk e.channel e.runs.byFlow) (funext fun s => ?_)
    simp only [withRuns, RunStore.get?, OrderedMap.get?_put] at hr ⊢
    by_cases hs : s = run
    · rw [if_pos hs, hs, hr, Option.map_some, Option.map_some, hf]
    · rw [if_neg hs]
  · rfl

@[simp] theorem frame_log (level : LogLevel) (message : String) (payload : Value) :
    (e.log now run level message payload).frame = e.frame :=
  frame_change fun _ => rfl

theorem frame_setStatus (next : RunStatus) {f : Run → Run} (hf : ∀ r, (f r).title = r.title) :
    (e.setStatus run next f).frame = e.frame := by
  unfold setStatus
  split
  · rfl
  · split
    · exact frame_change fun r => hf _
    · rfl

@[simp] theorem frame_note (n : Notice) : (e.note n).frame = e.frame := rfl

@[simp] theorem frame_emit (effect : Effect) : (e.emit effect).frame = e.frame := rfl

@[simp] theorem frame_withLive (f : Live → Live) : (e.withLive run f).frame = e.frame := rfl

@[simp] theorem frame_showNodes : (e.showNodes run).frame = e.frame := by
  unfold showNodes
  split
  · exact frame_change fun _ => rfl
  · rfl

@[simp] theorem frame_enter : (e.enter run node).frame = e.frame := frame_showNodes

@[simp] theorem frame_leave : (e.leave run node).frame = e.frame := frame_showNodes

@[simp] theorem frame_leaveTimes (n : Nat) : (e.leaveTimes run node n).frame = e.frame := by
  induction n generalizing e with
  | zero => rfl
  | succ n ih => exact ih.trans frame_leave

@[simp] theorem frame_dropTimers : (e.dropTimers now run).frame = e.frame := by
  simp only [dropTimers]
  split <;> rfl

@[simp] theorem frame_finish : (e.finish run).frame = e.frame := by
  unfold finish
  split <;> rfl

@[simp] theorem frame_complete : (e.complete now run).frame = e.frame := by
  unfold complete
  split
  · rfl
  · split
    · rw [frame_note, frame_finish]
      refine (frame_setStatus _ ?_).trans (frame_log _ _ _)
      exact fun _ => rfl
    · rfl

@[simp] theorem frame_fail (error : String) : (e.fail now run error).frame = e.frame := by
  unfold fail
  extract_lets ended
  split
  · rfl
  · rw [frame_note, frame_finish]
    refine (frame_setStatus _ ?_).trans ((frame_log _ _ _).trans frame_dropTimers)
    exact fun _ => rfl

/-! ## Walks -/

@[simp] theorem frame_failNode (n : Node) (failure : Failure) :
    (e.failNode now run n failure).frame = e.frame := by
  unfold failNode
  split <;> simp

@[simp] theorem frame_visit (context : Value) (path : List String) (n : Node) :
    (e.visit now run context path n).1.frame = e.frame := by
  unfold visit
  cases n.kind <;> dsimp only
  case finish => exact frame_log _ _ _
  case action =>
    unfold visitAction
    repeat' split
    all_goals simp
  case condition =>
    unfold visitCondition
    repeat' split
    all_goals simp
  case delay =>
    unfold visitDelay
    split
    · exact frame_log _ _ _
    · exact frame_log _ _ _
    · rfl

@[simp] theorem frame_walk (flow : Flow) (context : Value) (stops : List Stop) :
    (walk now run flow context e stops).1.frame = e.frame := by
  have hnode {e e₂ : Engine} {path : List String} {n : Node} {v : Visit} (hv : ((e.log now run
      n.announcement.1 n.announcement.2 .null).enter run n.id).visit now run context path n =
        (e₂, v)) : e₂.frame = e.frame := by
    simpa using (congrArg (fun visited => visited.1.frame) hv).symm
  fun_induction walk now run flow context e stops with
  | case1 => rfl
  | case2 e stop rest _ hn ih => exact ih.trans (frame_log _ _ _)
  | case3 e stop rest _ n hn hp ih => exact ih.trans (frame_log _ _ _)
  | case4 e stop rest _ n hn hp path e₁ e₂ way hv ih =>
    exact ih.trans (frame_leave.trans (hnode hv))
  | case5 e stop rest _ n hn hp path e₁ e₂ hv ih => exact ih.trans (hnode hv)
  | case6 e stop rest _ n hn hp path e₁ e₂ message hv => exact hnode hv
  | case7 e stop rest _ n hn hp path e₁ e₂ failure hv =>
    exact (frame_failNode n failure).trans (hnode hv)
  | case8 => rfl

@[simp] theorem frame_conclude (flowId : String) (origin : Origin) (halted : Engine × Halt) :
    (conclude now run flowId origin halted).frame = halted.1.frame := by
  obtain ⟨e, halt⟩ := halted
  cases halt with
  | ended => exact frame_complete
  | failed failure => cases origin <;> exact frame_fail _
  | sending => rfl

@[simp] theorem frame_proceed (flowId : String) (origin : Origin) (stops : List Stop) :
    (e.proceed now run flowId origin stops).frame = e.frame := by
  unfold proceed
  split <;> simp

/-! ## Turns -/

@[simp] theorem frame_answered (ticket : Nat) : (e.answered ticket).frame = e.frame := rfl

@[simp] theorem frame_rung (number : Nat) : (e.rung number).frame = e.frame := rfl

@[simp] theorem frame_undelayed : (e.undelayed run node).frame = e.frame := rfl

theorem frame_begin : (e.begin now run).frame = e.frame := by
  have hrunning : ((e.begun run).setStatus run .running id).frame = e.frame :=
    frame_setStatus _ fun _ => rfl
  rw [begin_eq]
  split
  · split
    · rfl
    · split
      · rw [frame_fail, hrunning]
      · rw [frame_proceed, frame_log, hrunning]
  · rfl

theorem frame_cancelRun : (e.cancelRun now run).1.frame = e.frame := by
  simp only [cancelRun]
  split <;> simp

/-- **A turn in which no run starts leaves the frame as it is.** -/
theorem frame_take {t : Turn} (hs : ¬ t.Starts) : (e.take now t).frame = e.frame := by
  cases t with
  | start run flow event => exact absurd trivial hs
  | begin run => exact frame_begin
  | reply ticket reply =>
    simp only [take, reply_eq]
    split
    · rfl
    · simp only [afterReply]
      split <;> simp
  | fire number =>
    simp only [take, fire_eq]
    split
    · rfl
    · split <;> simp
  | cancelRun run => exact frame_cancelRun
  | cancelDelay run node =>
    simp only [take, cancelDelay_eq]
    split <;> simp
  | cancelFlowRuns flowId =>
    exact take_cancelFlowRuns_induction (p := fun other => other.frame = e.frame)
      (fun _ _ _ h => frame_cancelRun.trans h) rfl now flowId
  | served effects => rfl
  | told notice => rfl

/-- The channel is the same at all times. -/
theorem channel_take (t : Turn) : (e.take now t).channel = e.channel := by
  by_cases hs : t.Starts
  case neg => exact congrArg Frame.channel (frame_take hs)
  cases t with
  | start run flow event =>
    have hlog (e : Engine) (message : String) : (e.log now run .info message .null).channel =
      e.channel := congrArg Frame.channel (frame_log _ _ _)
    exact hlog _ _
  | _ => exact hs.elim

/-- A start adds the record of its run. -/
theorem titles_start (flow : Flow) (event : Event) (s : String) :
    (e.start now run flow event).frame.titles s =
      if s = run then some (run, flow.id, .utc now) else e.frame.titles s := by
  change ((e.start now run flow event).about s).record.map Run.title = _
  by_cases hs : s = run
  · subst hs
    rw [about_start, if_pos rfl]
    rfl
  · rw [about_start_of_ne hs, if_neg hs]
    rfl

/-- **Every record is kept under its own id.** -/
theorem Reachable.filed (h : e.Reachable) {r : Run} (hr : e.runs.get? run = some r) :
    r.id = run := by
  have htitles : ∀ title, e.frame.titles run = some title → title.1 = run := by
    clear hr
    induction h with
    | idle channel => simp [frame, RunStore.get?, OrderedMap.get?_empty]
    | @take e t now _ _ ih =>
      by_cases hs : t.Starts
      case neg => rwa [frame_take hs]
      cases t with
      | start s flow event =>
        intro title htitle
        rw [Engine.take, titles_start] at htitle
        split at htitle
        · rename_i hrun
          rw [← Option.some.inj htitle, hrun]
        · exact ih title htitle
      | _ => exact hs.elim
  exact htitles r.title (by simp [frame, hr])

end Engine

end Campaign
