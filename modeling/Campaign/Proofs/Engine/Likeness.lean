import Campaign.Proofs.Engine.Frozen
/-!
# Runs that are alike

Two runs, each of an engine of its own, are alike if what is held about them differs in nothing but
their ids, the moments at which things happened, and the numbers of timers and tickets
(`Share.Alike`).  What an operation does to a run depends on nothing else that the engine holds:
carried out on two runs that are alike, whatever the time, it leaves runs that are alike.  A walk
also comes to the same halt (`alike_walk`).

The turns of the engine follow in the order of `Campaign.Engine.Turn`; `alike_proceed` is what most
of them end with.
-/
namespace Campaign

/-- The record of a run without its id and the moments that are written in it. -/
def Run.timeless (r : Run) : Run :=
  { r with
    id := "", startedAt := .utc 0, finishedAt := r.finishedAt.map fun _ => .utc 0
    log := r.log.map fun entry => { entry with timestamp := .utc 0 } }

/-- A timer without its number and its run. -/
def Timer.bare {α : Type} (t : Timer α) : String × α := (t.node, t.what)

/-- A walk that waits for a reply, without its run. -/
def Sending.bare (s : Sending) : Sending := { s with run := "" }

namespace Run

theorem timeless_logged (r : Run) (now : Int) (level : LogLevel) (message : String)
    (payload : Value) : (r.logged now level message payload).timeless =
      r.timeless.logged 0 level message payload := by
  simp [timeless, logged]

end Run

namespace Share

/-- Whether what is held about two runs differs in nothing but ids, moments and numbers. -/
structure Alike (a b : Share) : Prop where
  record : a.record.map Run.timeless = b.record.map Run.timeless
  live : a.live = b.live
  unstarted : a.unstarted = b.unstarted
  timers : a.timers.map Timer.bare = b.timers.map Timer.bare
  sending : (a.sending.map fun entry => entry.2.bare) = b.sending.map fun entry => entry.2.bare

end Share

namespace Engine

variable {e e' : Engine} {s s' : String} {now now' : Int}

open Share (Alike)

/-! ## Operations -/

theorem alike_change {f f' : Run → Run} (h : Alike (e.about s) (e'.about s'))
    (hf : ∀ r r', r.timeless = r'.timeless → (f r).timeless = (f' r').timeless) :
    Alike ((e.change s f).about s) ((e'.change s' f').about s') := by
  rw [about_change, about_change]
  refine { h with record := ?_ }
  have hrec := h.record
  dsimp only
  cases hr : (e.about s).record <;> cases hr' : (e'.about s').record <;>
    simp only [hr, hr', Option.map_none, Option.map_some, Option.some.injEq, reduceCtorEq] at hrec ⊢
  exact hf _ _ hrec

theorem alike_log (h : Alike (e.about s) (e'.about s')) (level : LogLevel) (message : String)
    (payload : Value) : Alike ((e.log now s level message payload).about s)
      ((e'.log now' s' level message payload).about s') := by
  refine alike_change h fun r r' hr => ?_
  change (r.logged now level message payload).timeless =
    (r'.logged now' level message payload).timeless
  rw [Run.timeless_logged, Run.timeless_logged, hr]

theorem alike_setStatus (h : Alike (e.about s) (e'.about s')) (next : RunStatus)
    {f f' : Run → Run}
    (hf : ∀ r r', r.timeless = r'.timeless → (f r).timeless = (f' r').timeless) :
    Alike ((e.setStatus s next f).about s) ((e'.setStatus s' next f').about s') := by
  have hrec : (e.runs.get? s).map Run.timeless = (e'.runs.get? s').map Run.timeless := h.record
  unfold setStatus
  cases hr : e.runs.get? s <;> cases hr' : e'.runs.get? s' <;>
    simp only [hr, hr', Option.map_none, Option.map_some, Option.some.injEq, reduceCtorEq] at hrec ⊢
  · exact h
  · rename_i r r'
    have hstatus : r.timeless.status = r'.timeless.status := congrArg Run.status hrec
    simp only [show r.status = r'.status from hstatus]
    cases r'.status.move next with
    | error => exact h
    | ok status =>
      exact alike_change h fun r r' hrr => hf _ _ (congrArg (fun r : Run => { r with status }) hrr)

theorem alike_note (h : Alike (e.about s) (e'.about s')) (n n' : Notice) :
    Alike ((e.note n).about s) ((e'.note n').about s') := by
  rw [about_note, about_note]
  exact ⟨h.record, h.live, h.unstarted, h.timers, h.sending⟩

theorem alike_withLive (h : Alike (e.about s) (e'.about s')) (f : Live → Live) :
    Alike ((e.withLive s f).about s) ((e'.withLive s' f).about s') := by
  rw [about_withLive, about_withLive]
  exact { h with live := congrArg (Option.map f) h.live }

theorem alike_showNodes (h : Alike (e.about s) (e'.about s')) :
    Alike ((e.showNodes s).about s) ((e'.showNodes s').about s') := by
  have hlive : e.live.get? s = e'.live.get? s' := h.live
  unfold showNodes
  rw [hlive]
  split
  · rename_i l _
    exact alike_change h fun r r' hr =>
      congrArg (fun r : Run => { r with currentNodes := l.nodes }) hr
  · exact h

theorem alike_enter (h : Alike (e.about s) (e'.about s')) (node : String) :
    Alike ((e.enter s node).about s) ((e'.enter s' node).about s') :=
  alike_showNodes (alike_withLive h _)

theorem alike_leave (h : Alike (e.about s) (e'.about s')) (node : String) :
    Alike ((e.leave s node).about s) ((e'.leave s' node).about s') :=
  alike_showNodes (alike_withLive h _)

theorem alike_leaveTimes (h : Alike (e.about s) (e'.about s')) (node : String) (n : Nat) :
    Alike ((e.leaveTimes s node n).about s) ((e'.leaveTimes s' node n).about s') := by
  induction n generalizing e e' with
  | zero => exact h
  | succ n ih => exact ih (alike_leave h node)

theorem alike_schedule (h : Alike (e.about s) (e'.about s')) (node : String) (c : Continuation) :
    Alike ({ e with timers := e.timers.schedule s node c }.about s)
      ({ e' with timers := e'.timers.schedule s' node c }.about s') := by
  rw [about_schedule, about_schedule]
  exact { h with timers := by simp [h.timers, Timer.bare] }

theorem alike_dropTimers (h : Alike (e.about s) (e'.about s')) :
    Alike ((e.dropTimers now s).about s) ((e'.dropTimers now' s').about s') := by
  rw [about_dropTimers, about_dropTimers]
  exact { h with timers := rfl }

theorem alike_finish (h : Alike (e.about s) (e'.about s')) :
    Alike ((e.finish s).about s) ((e'.finish s').about s') := by
  rw [about_finish, about_finish]
  exact { h with live := rfl }

theorem isLive_of_alike (h : Alike (e.about s) (e'.about s')) : e.isLive s = e'.isLive s' :=
  congrArg Option.isSome h.live

/-- It is looked whether a run is over. -/
theorem alike_complete (h : Alike (e.about s) (e'.about s')) :
    Alike ((e.complete now s).about s) ((e'.complete now' s').about s') := by
  have hlive : e.live.get? s = e'.live.get? s' := h.live
  unfold complete
  rw [hlive]
  split
  · exact h
  · split
    · exact alike_note (alike_finish (alike_setStatus (alike_log h _ _ _) _ fun r r' hr => congrArg
        (fun r : Run => { r with finishedAt := some (.utc 0), currentNodes := [] }) hr)) _ _
    · exact h

theorem status_of_alike (h : Alike (e.about s) (e'.about s')) :
    (e.about s).record.map Run.status = (e'.about s').record.map Run.status := by
  have hrec := congrArg (Option.map Run.status) h.record
  rw [Option.map_map, Option.map_map] at hrec
  exact hrec

theorem alike_fail (h : Alike (e.about s) (e'.about s')) (error : String) :
    Alike ((e.fail now s error).about s) ((e'.fail now' s' error).about s') := by
  have hstatus := status_of_alike h
  unfold fail
  extract_lets ended ended'
  have hended : ended = ended' := by
    simp only [ended, ended']
    simp only [about] at hstatus
    cases hr : e.runs.get? s <;> cases hr' : e'.runs.get? s' <;> simp_all
  rw [hended]
  split
  · exact alike_note h _ _
  · exact alike_note (alike_finish (alike_setStatus (alike_log (alike_dropTimers h) _ _ _) _
      fun r r' hr => congrArg (fun r : Run => { r with
        finishedAt := some (.utc 0), error := some error, currentNodes := [] }) hr)) _ _

theorem alike_failNode (h : Alike (e.about s) (e'.about s')) (n : Node) (failure : Failure) :
    Alike ((e.failNode now s n failure).about s) ((e'.failNode now' s' n failure).about s') := by
  unfold failNode
  rw [isLive_of_alike h]
  split
  · exact alike_leave (alike_log h _ _ _) _
  · exact alike_leave h _

/-! ## Walks -/

theorem alike_visit (h : Alike (e.about s) (e'.about s')) (now now' : Int) (context : Value)
    (path : List String) (n : Node) :
    (e.visit now s context path n).2 = (e'.visit now' s' context path n).2 ∧
      Alike ((e.visit now s context path n).1.about s)
        ((e'.visit now' s' context path n).1.about s') := by
  rw [(visit_eq e now s context path n).1, (visit_eq e' now' s' context path n).1]
  refine ⟨rfl, ?_⟩
  unfold visit
  cases n.kind <;> dsimp only
  case trigger => exact h
  case finish => exact alike_log h _ _ _
  case action =>
    unfold visitAction
    split
    · exact alike_log h _ _ _
    · split <;> exact h
    · exact h
  case condition =>
    unfold visitCondition
    split
    · exact alike_log h _ _ _
    · split
      · exact alike_log h _ _ _
      · exact h
    · exact h
  case delay =>
    unfold visitDelay
    split
    · exact alike_log h _ _ _
    · exact alike_schedule (alike_note (alike_withLive (alike_log h _ _ _) _) _ _) _ _
    · exact h

/-- A walk that comes to a node and processes it. -/
theorem walk_of_processed {flow : Flow} {stop : Stop} {n : Node} (hlive : e.isLive s = true)
    (hn : flow.node? stop.node = some n) (hp : n.id ∉ stop.path) (now : Int) (context : Value)
    (rest : List Stop) :
    walk now s flow context e (stop :: rest) =
      match ((e.log now s n.announcement.1 n.announcement.2 .null).enter s n.id).visit now s
        context (stop.path ++ [n.id]) n with
      | (e, .onward way) =>
        walk now s flow context (e.leave s n.id)
          (flow.behind n.id (stop.path ++ [n.id]) way ++ rest)
      | (e, .waits) => walk now s flow context e rest
      | (e, .sends message) => (e, .sending n (stop.path ++ [n.id]) rest message)
      | (e, .fails failure) => (e.failNode now s n failure, .failed failure) := by
  rw [walk.eq_def]
  simp only [hlive, if_true]
  split
  · simp_all
  · rename_i m hm
    obtain rfl : m = n := Option.some.inj (hm.symm.trans hn)
    simp only [hp, dite_false]
    rfl

/-- A node that is processed within walks of both runs. -/
theorem alike_node (h : Alike (e.about s) (e'.about s')) (now' : Int) {context : Value}
    {path : List String} {n : Node} {e₂ : Engine} {v : Visit}
    (hv : ((e.log now s n.announcement.1 n.announcement.2 .null).enter s n.id).visit now s
      context path n = (e₂, v)) :
    ∃ e₂', ((e'.log now' s' n.announcement.1 n.announcement.2 .null).enter s' n.id).visit now' s'
      context path n = (e₂', v) ∧ Alike (e₂.about s) (e₂'.about s') := by
  obtain ⟨hout, ha⟩ := alike_visit
    (alike_enter (alike_log h n.announcement.1 n.announcement.2 .null) n.id) now now' context path n
  rw [hv] at hout ha
  exact ⟨_, Prod.ext rfl hout.symm, ha⟩

/-- **Walks of runs that are alike** come to the same halt and leave them alike. -/
theorem alike_walk (h : Alike (e.about s) (e'.about s')) (now now' : Int) (flow : Flow)
    (context : Value) (stops : List Stop) :
    (walk now s flow context e stops).2 = (walk now' s' flow context e' stops).2 ∧
      Alike ((walk now s flow context e stops).1.about s)
        ((walk now' s' flow context e' stops).1.about s') := by
  fun_induction walk now s flow context e stops generalizing e' with
  | case1 =>
    rw [walk.eq_def now']
    exact ⟨rfl, h⟩
  | case2 e stop rest hlive hn ih =>
    rw [isLive_of_alike h] at hlive
    rw [walk.eq_def now']
    simp only [hlive, if_true]
    split
    · exact ih (alike_log h _ _ _)
    · simp_all
  | case3 e stop rest hlive n hn hp ih =>
    rw [isLive_of_alike h] at hlive
    rw [walk.eq_def now']
    simp only [hlive, if_true]
    split
    · simp_all
    · rename_i m hm
      obtain rfl : m = n := Option.some.inj (hm.symm.trans hn)
      simp only [hp, dite_true]
      exact ih (alike_log h _ _ _)
  | case4 e stop rest hlive n hn hp path e₁ e₂ way hv =>
    rename_i ih
    obtain ⟨e₂', hv', ha⟩ := alike_node h now' hv
    rw [walk_of_processed (isLive_of_alike h ▸ hlive) hn hp, hv']
    exact ih (alike_leave ha _)
  | case5 e stop rest hlive n hn hp path e₁ e₂ hv =>
    rename_i ih
    obtain ⟨e₂', hv', ha⟩ := alike_node h now' hv
    rw [walk_of_processed (isLive_of_alike h ▸ hlive) hn hp, hv']
    exact ih ha
  | case6 e stop rest hlive n hn hp path e₁ e₂ message =>
    rename_i hv
    obtain ⟨e₂', hv', ha⟩ := alike_node h now' hv
    rw [walk_of_processed (isLive_of_alike h ▸ hlive) hn hp, hv']
    exact ⟨rfl, ha⟩
  | case7 e stop rest hlive n hn hp path e₁ e₂ failure =>
    rename_i hv
    obtain ⟨e₂', hv', ha⟩ := alike_node h now' hv
    rw [walk_of_processed (isLive_of_alike h ▸ hlive) hn hp, hv']
    exact ⟨rfl, alike_failNode ha n failure⟩
  | case8 e stop rest hlive =>
    rw [isLive_of_alike h] at hlive
    rw [walk.eq_def now']
    simpa only [hlive, Bool.false_eq_true, if_false, true_and] using h

/-! ## Walks that come to a halt -/

theorem alike_conclude (h : Alike (e.about s) (e'.about s')) (flowId : String) (origin : Origin)
    (halt : Halt) : Alike ((conclude now s flowId origin (e, halt)).about s)
      ((conclude now' s' flowId origin (e', halt)).about s') := by
  cases halt with
  | ended => exact alike_complete (alike_withLive h _)
  | failed failure =>
    cases origin with
    | trigger => exact alike_fail (alike_note h _ _) _
    | delay node => exact alike_fail (alike_withLive (alike_note h _ _) _) _
  | sending node path rest message =>
    rw [about_conclude_sending, about_conclude_sending]
    refine { h with sending := ?_ }
    rw [List.map_append, List.map_append, h.sending]
    rfl

theorem alike_proceed (h : Alike (e.about s) (e'.about s')) (flowId : String) (origin : Origin)
    (stops : List Stop) : Alike ((e.proceed now s flowId origin stops).about s)
      ((e'.proceed now' s' flowId origin stops).about s') := by
  have hlive : e.live.get? s = e'.live.get? s' := h.live
  unfold proceed
  rw [hlive]
  split
  · rename_i l _
    obtain ⟨hhalt, ha⟩ := alike_walk h now now' l.flow l.context stops
    generalize walk now s l.flow l.context e stops = halted at hhalt ha ⊢
    generalize walk now' s' l.flow l.context e' stops = halted' at hhalt ha ⊢
    obtain ⟨e₁, halt⟩ := halted
    obtain ⟨e₂, halt'⟩ := halted'
    obtain rfl : halt = halt' := hhalt
    exact alike_conclude ha _ _ _
  · exact alike_conclude h _ _ _

/-! ## Turns -/

theorem alike_start (h : Alike (e.about s) (e'.about s')) (flow : Flow) (event : Event) :
    Alike ((e.start now s flow event).about s) ((e'.start now' s' flow event).about s') := by
  rw [about_start, about_start]
  exact { h with
    record := by simp [Run.timeless, Run.logged]
    live := rfl
    unstarted := congrArg (· + 1) h.unstarted }

theorem alike_begun (h : Alike (e.about s) (e'.about s')) :
    Alike ((e.begun s).about s) ((e'.begun s').about s') := by
  rw [about_begun, about_begun, if_pos rfl, if_pos rfl]
  exact { h with unstarted := congrArg (· - 1) h.unstarted }

theorem alike_begin (h : Alike (e.about s) (e'.about s')) :
    Alike ((e.begin now s).about s) ((e'.begin now' s').about s') := by
  have hlive : e.live.get? s = e'.live.get? s' := h.live
  have hun : s ∈ e.unstarted ↔ s' ∈ e'.unstarted := by
    rw [← List.count_pos_iff, ← List.count_pos_iff]
    exact iff_of_eq (congrArg (0 < ·) h.unstarted)
  have hrun : Alike (((e.begun s).setStatus s .running id).about s)
      (((e'.begun s').setStatus s' .running id).about s') :=
    alike_setStatus (alike_begun h) _ fun _ _ hr => hr
  rw [begin_eq, begin_eq]
  simp only [hun, hlive]
  split
  · split
    · exact alike_begun h
    · split
      · exact alike_fail hrun _
      · exact alike_proceed (alike_log hrun _ _ _) _ _ _
  · exact h

theorem alike_afterReply {sd sd' : Sending} (h : Alike (e.about sd.run) (e'.about sd'.run))
    (hchannel : e.channel = e'.channel) (hbare : sd.bare = sd'.bare) (reply : Reply) :
    Alike ((e.afterReply now sd reply).about sd.run)
      ((e'.afterReply now' sd' reply).about sd'.run) := by
  obtain ⟨s, flowId, origin, node, path, rest, message⟩ := sd
  obtain ⟨s', flowId', origin', node', path', rest', message'⟩ := sd'
  obtain ⟨-, rfl, rfl, rfl, rfl, rfl, rfl⟩ := Sending.mk.inj hbare
  have hlive : e.live.get? s = e'.live.get? s' := h.live
  simp only [afterReply, hlive, hchannel]
  split
  · exact alike_conclude (alike_failNode h _ _) _ _ _
  · exact alike_conclude h _ _ _
  · exact alike_conclude (alike_failNode h _ _) _ _ _
  · exact alike_conclude (alike_failNode h _ _) _ _ _
  · exact alike_proceed (alike_leave (alike_log h _ _ _) _) _ _ _

theorem alike_cancelRun (h : Alike (e.about s) (e'.about s')) :
    Alike ((e.cancelRun now s).1.about s) ((e'.cancelRun now' s').1.about s') := by
  have hdrop : Alike ((e.dropTimers now s).about s) ((e'.dropTimers now' s').about s') :=
    alike_dropTimers h
  have hcount : e.timers.count s = e'.timers.count s' := by
    simpa [count_timers] using congrArg List.length h.timers
  simp only [cancelRun, isLive_of_alike hdrop, hcount]
  split
  · exact alike_fail (alike_withLive hdrop _) _
  · exact hdrop

theorem about_undelayed (e : Engine) (run node : String) :
    (e.undelayed run node).about run = { e.about run with
      timers := (e.about run).timers.filter fun t => t.node != node } := by
  have h : (e.timers.cancel run node).pending.filter (fun t => t.run == run) =
      (e.timers.pending.filter fun t => t.run == run).filter fun t => t.node != node := by
    simp only [Scheduler.cancel, List.filter_filter]
    refine List.filter_congr fun t _ => ?_
    cases hr : t.run == run <;> simp [hr, Timer.isAt, bne]
  simp only [about, undelayed, h]

theorem countAt_timers (e : Engine) (run node : String) :
    e.timers.countAt run node = (e.about run).timers.countP fun t => t.node == node := by
  simp [Scheduler.countAt, about, Timer.isAt, List.countP_filter, Bool.and_comm]

theorem alike_cancelDelay (h : Alike (e.about s) (e'.about s')) (node : String) :
    Alike ((e.cancelDelay now s node).1.about s) ((e'.cancelDelay now' s' node).1.about s') := by
  have hcount : e.timers.countAt s node = e'.timers.countAt s' node := by
    rw [countAt_timers, countAt_timers]
    simpa [List.countP_map, Function.comp_def, Timer.bare] using
      congrArg (List.countP fun t => t.1 == node) h.timers
  have hkept : Alike ((e.undelayed s node).about s) ((e'.undelayed s' node).about s') := by
    rw [about_undelayed, about_undelayed]
    refine { h with timers := ?_ }
    simpa [List.filter_map, Function.comp_def, Timer.bare] using
      congrArg (List.filter fun t => t.1 != node) h.timers
  rw [cancelDelay_eq, cancelDelay_eq]
  simp only [hcount, isLive_of_alike h]
  split
  · exact alike_complete (alike_log (alike_leaveTimes (alike_withLive hkept _) _ _) _ _ _)
  · exact hkept

end Engine

end Campaign
