import Campaign.Proofs.Engine.Frozen
/-!
# Timers that are gone

Whatever happens, timers go, and those that come have numbers that were not given before
(`later_take`).  So a timer that is gone does not come back, and whenever it would fire nothing
happens (`fire_of_gone`).
-/
namespace Campaign.Engine

open Scheduler (Later)

variable {e e' : Engine} {now : Int} {run : String}

/-! ## Operations -/

theorem later_of_desk (h : e'.desk = e.desk) : Later e.timers e'.timers := by
  have ht : e'.timers = e.timers := congrArg Desk.timers h
  rw [ht]
  exact .refl _

theorem later_dropTimers : Later e.timers (e.dropTimers now run).timers := by
  have ht : (e.dropTimers now run).timers = e.timers.cancelAll run :=
    congrArg Desk.timers desk_dropTimers
  rw [ht]
  exact .filter _ _

theorem later_fail (error : String) : Later e.timers (e.fail now run error).timers := by
  unfold fail
  extract_lets ended
  split
  · exact .refl _
  · refine later_dropTimers.trans (later_of_desk (e := e.dropTimers now run) ?_)
    simp

theorem later_conclude (flowId : String) (origin : Origin) (halt : Halt) :
    Later e.timers (conclude now run flowId origin (e, halt)).timers := by
  cases halt with
  | ended =>
    refine later_of_desk ?_
    simp [conclude]
  | failed failure =>
    simp only [conclude]
    -- what stands between is no matter of the timers
    cases origin with
    | trigger =>
      have htold : Later e.timers
        (e.note (failureNotice now run flowId failure .trigger)).timers := .refl _
      exact htold.trans (later_fail _)
    | delay node =>
      have htold : Later e.timers ((e.note (failureNotice now run flowId failure
        (.delay node))).withLive run (Origin.settle (.delay node))).timers := .refl _
      exact htold.trans (later_fail _)
  | sending node path rest message => exact .refl _

theorem later_proceed (flowId : String) (origin : Origin) (stops : List Stop) :
    Later e.timers (e.proceed now run flowId origin stops).timers := by
  obtain ⟨said, delays, e', halt, hw, heq⟩ := exists_proceed e now run flowId origin stops
  rw [heq]
  exact hw.later.trans (later_conclude flowId origin halt)

/-! ## Turns -/

theorem later_start (flow : Flow) (event : Event) :
    Later e.timers (e.start now run flow event).timers := by
  have hdesk : (e.start now run flow event).desk =
      { e.desk with unstarted := e.unstarted ++ [run] } := by
    simp only [start, desk_note, desk_emit (rfl : (Effect.begin run).isSend = false), desk_log]
    rfl
  have ht : (e.start now run flow event).timers = e.timers := congrArg Desk.timers hdesk
  rw [ht]
  exact .refl _

theorem later_begin : Later e.timers (e.begin now run).timers := by
  have hset : Later e.timers ((e.begun run).setStatus run .running id).timers :=
    later_of_desk (e := e.begun run) (desk_setStatus _ _)
  rw [begin_eq]
  split
  · split
    · exact .refl _
    · split
      · exact hset.trans (later_fail _)
      · exact (hset.trans (later_of_desk (desk_log _ _ _))).trans (later_proceed _ _ _)
  · exact .refl _

theorem later_reply (ticket : Nat) (reply : Reply) :
    Later e.timers (e.reply now ticket reply).timers := by
  rw [reply_eq]
  split
  · exact .refl _
  · rename_i sd hsd
    obtain ⟨said, delays, e', halt, hw, heq⟩ := exists_afterReply (e.answered ticket) now sd reply
    rw [heq]
    exact hw.later.trans (later_conclude _ _ _)

theorem later_rung (number : Nat) : Later e.timers (e.rung number).timers := .filter _ _

theorem later_fire (number : Nat) : Later e.timers (e.fire now number).timers := by
  rw [fire_eq]
  split
  · exact .refl _
  · split
    · exact later_rung number
    · refine ((later_rung number).trans (later_of_desk ?_)).trans (later_proceed _ _ _)
      rw [desk_log, desk_leave]

theorem later_cancelRun : Later e.timers (e.cancelRun now run).1.timers := by
  simp only [cancelRun]
  split
  · have hcounted : Later e.timers ((e.dropTimers now run).withLive run fun l =>
        { l with outstanding := l.outstanding - e.timers.count run }).timers :=
      later_dropTimers.trans (later_of_desk (desk_withLive _))
    exact hcounted.trans (later_fail _)
  · exact later_dropTimers

theorem later_undelayed (node : String) : Later e.timers (e.undelayed run node).timers :=
  .filter _ _

theorem later_cancelDelay (node : String) :
    Later e.timers (e.cancelDelay now run node).1.timers := by
  rw [cancelDelay_eq]
  split
  · refine ((later_undelayed node).trans (walked_undelayed e now run node).later).trans ?_
    exact later_of_desk desk_complete
  · exact later_undelayed node

/-- **Timers go, and those that come have new numbers.** -/
theorem later_take (e : Engine) (now : Int) (t : Turn) : Later e.timers (e.take now t).timers := by
  cases t with
  | start run flow event => exact later_start flow event
  | begin run => exact later_begin
  | reply ticket reply => exact later_reply ticket reply
  | fire number => exact later_fire number
  | cancelRun run => exact later_cancelRun
  | cancelDelay run node => exact later_cancelDelay node
  | cancelFlowRuns flowId =>
    exact take_cancelFlowRuns_induction (p := fun e' => Later e.timers e'.timers)
      (fun e' now run h => h.trans later_cancelRun) (.refl _) now flowId
  | served effects => exact .refl _
  | told notice => exact .refl _

theorem later_follow (e : Engine) (history : List (Int × Turn)) :
    Later e.timers (e.follow history).timers := by
  induction history generalizing e with
  | nil => exact .refl _
  | cons turn history ih =>
    obtain ⟨now, t⟩ := turn
    exact (later_take e now t).trans (ih (e.take now t))

/-- **A timer that is gone never fires**: whatever has happened since, nothing happens when it
would. -/
theorem fire_of_gone {number : Nat} (hgone : e.timers.find? number = none)
    (hgiven : number < e.timers.next) (history : List (Int × Turn)) (now : Int) :
    (e.follow history).take now (.fire number) = e.follow history :=
  take_fire_of_none ((later_follow e history).find?_eq_none hgone hgiven) now

end Campaign.Engine
