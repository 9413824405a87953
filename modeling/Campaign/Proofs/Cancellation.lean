import Campaign.Proofs.Engine.Accounting
import Campaign.Proofs.Engine.Places
import Campaign.Proofs.Engine.StartOrder
import Campaign.Proofs.Engine.Timers
import Campaign.Proofs.Host.Budget
import Campaign.Proofs.Host.Released
import Campaign.Proofs.Service.Rejection
/-!
# Cancellation

A run can be cancelled at any time while it is live: before its walk has begun, while messages of it
are under way, and while delays of it are on.  It has then failed at once and for good
(`Engine.Cancelled`).  Delays can be called off without the run, which goes on with what else it has
to do, and completes if there is nothing else (`Engine.CalledOff`).

`cancellation` puts together what the operations that cancel do to a run, to the runs of a flow and
to the delays at a node, in whatever state the engine is.
-/
namespace Campaign

namespace Engine

/-- What has become of a run that was cancelled: it has failed and has nothing left to do, the
outside is told so, whoever waited for it is released when the host has served the engine, and to
cancel it again does nothing. -/
structure Cancelled (now : Int) (run : String) (e : Engine) : Prop where
  record : ∃ r, e.runs.get? run = some r ∧ r.status = .failed ∧ r.error = some "Run cancelled" ∧
    r.finishedAt = some (.utc now) ∧ r.currentNodes = []
  timers : e.timers.count run = 0
  gone : run ∉ e.liveRuns
  told : .ended run ∈ e.effects
  /-- What the engine is worth is enough to serve it. -/
  served : ∀ host : Host, host.engine = e → ∀ fuel, e.worth ≤ fuel →
    (host.absorb fuel).engine.effects = []
  released : ∀ host : Host, host.engine = e → ∀ w, host.awaited = some (run, w) → ∀ fuel,
    (host.absorb fuel).engine.effects = [] → (host.absorb fuel).Released w
  again : ∀ later, e.cancelRun later run = (e, false)

/-- What calling off the delays of a run at a node does, and what it leaves alone. -/
structure CalledOff (run node : String) (e e' : Engine) : Prop where
  /-- None of these delays is ever over. -/
  gone : ∀ t ∈ e.timers.pending, t.isAt run node = true → ∀ history now,
    (e'.follow history).take now (.fire t.number) = e'.follow history
  timers : e'.timers.pending = e.timers.pending.filter fun t => !t.isAt run node
  /-- The walks that wait for replies are left alone, those behind a delay among them. -/
  walks : e'.sending = e.sending ∧ e'.unstarted = e.unstarted
  others : ∀ other, other ≠ run → e'.about other = e.about other
  /-- A run that stays live is where it was, except at this node. -/
  elsewhere : ∀ r r', e.runs.get? run = some r → e'.runs.get? run = some r' →
    run ∈ e'.liveRuns → ∀ place, place ≠ node → (place ∈ r'.currentNodes ↔ place ∈ r.currentNodes)
  ends : run ∈ e.liveRuns → run ∈ e'.liveRuns ∨ e'.status? run = some .completed
  completes : (e'.status? run = some .completed ∧ e.status? run ≠ some .completed) ↔
    run ∈ e.liveRuns ∧ e.Returned run ∧
      e.timers.count run + e.resumed run = e.timers.countAt run node

variable {e e' : Engine} {now : Int} {run node flowId : String} {r : Run} {l : Live}

theorem mem_liveRuns_iff : run ∈ e.liveRuns ↔ e.isLive run = true := OrderedMap.mem_keys

/-! ## Runs -/

/-- What is held about a run that was cancelled makes out the rest. -/
theorem Cancelled.of_about (hc : e'.Coherent) (habout : e'.about run = { e.about run with
    record := some (r.failed now cancelled), live := none, timers := [] })
    (hended : .ended run ∈ e'.effects) : Cancelled now run e' := by
  have hlive : (e'.about run).live = none := by rw [habout]
  have hrecord : (e'.about run).record = some (r.failed now cancelled) := by rw [habout]
  refine ⟨⟨_, hrecord, rfl, rfl, rfl, rfl⟩, count_eq_zero (by rw [habout]), ?_, hended, ?_, ?_,
    fun later => cancelRun_of_not_live hc later hlive⟩
  · rw [mem_liveRuns_iff, isLive_eq, hlive]
    exact Bool.false_ne_true
  · rintro host rfl fuel hfuel
    exact Host.effects_absorb hc hfuel
  · rintro host rfl w hw fuel
    exact Host.released_absorb ⟨hw, .inr hended⟩ hc hlive fuel

/-- A live run that is live no more after a turn is said to have ended. -/
theorem ended_of_regular (h : Regular e e') (hl : (e.about run).live = some l)
    (hnone : (e'.about run).live = none) : .ended run ∈ e'.effects := by
  obtain ⟨added, heffects, hadded⟩ := h.frank
  rw [heffects]
  exact List.mem_append_right _ ((hadded run).2 ⟨Option.isSome_iff_exists.2 ⟨l, hl⟩, hnone⟩)

/-- **A live run that is cancelled has failed at once.** -/
theorem cancelled_cancelRun (hc : e.Coherent) (now : Int) (hlive : run ∈ e.liveRuns) :
    Cancelled now run (e.cancelRun now run).1 := by
  obtain ⟨l, hl⟩ := Option.isSome_iff_exists.1 (mem_liveRuns_iff.1 hlive)
  obtain ⟨r, hg, -⟩ := hc.going hl
  have habout := about_cancelRun_of_going hg now
  refine .of_about (coherent_take hc now (t := .cancelRun run) trivial) habout ?_
  exact ended_of_regular (regular_cancelRun hc now run) hl (by rw [habout])

/-- **Of the runs of a flow, those that are live are cancelled.** -/
theorem cancelled_cancelFlowRuns (hc : e.Coherent) (now : Int) (hrun : run ∈ e.liveRunsOf flowId) :
    Cancelled now run (e.cancelFlowRuns now flowId).1 := by
  obtain ⟨l, hl, -⟩ := mem_liveRunsOf.1 hrun
  obtain ⟨r, hg, -⟩ := hc.going hl
  have habout : (e.cancelFlowRuns now flowId).1.about run = { e.about run with
      record := some (r.failed now cancelled), live := none, timers := [] } :=
    about_cancelRuns_of_going hg now hrun
  have hregular : Regular e (e.cancelFlowRuns now flowId).1 :=
    regular_take hc now (t := .cancelFlowRuns flowId) id (by simp)
  refine .of_about (coherent_take hc now (t := .cancelFlowRuns flowId) trivial) habout ?_
  exact ended_of_regular hregular hl (by rw [habout])

/-! ## Delays -/

@[simp] theorem desk_leaveTimes (e : Engine) (run node : String) (n : Nat) :
    (e.leaveTimes run node n).desk = e.desk := by
  induction n generalizing e with
  | zero => rfl
  | succ n ih => exact (ih (e.leave run node)).trans (desk_leave node)

/-- Calling off delays touches nothing on the desk but their timers. -/
theorem desk_cancelDelay (e : Engine) (now : Int) (run node : String) :
    (e.cancelDelay now run node).1.desk = { e.desk with timers := e.timers.cancel run node } := by
  rw [cancelDelay_eq]
  split
  · simp only [desk_complete, desk_log, desk_leaveTimes, desk_withLive]
    rfl
  · rfl

theorem cancelDelay_snd (e : Engine) (now : Int) (run node : String) :
    (e.cancelDelay now run node).2 = e.timers.countAt run node := by
  simp only [cancelDelay]
  split <;> rfl

/-- A timer that was called off is gone for good. -/
theorem fire_of_calledOff (hc : e.Coherent) {t : Timer Continuation} (ht : t ∈ e.timers.pending)
    (hat : t.isAt run node = true) (htimers : e'.timers = e.timers.cancel run node)
    (history : List (Int × Turn)) (now : Int) :
    (e'.follow history).take now (.fire t.number) = e'.follow history := by
  have hnumbered : e.timers.Numbered := hc.tidy.timers
  refine fire_of_gone ?_ ?_ history now
  · rw [htimers]
    refine List.find?_eq_none.2 fun u hu hnumber => ?_
    obtain ⟨hmem, hnot⟩ := List.mem_filter.1 hu
    -- numbers tell timers apart
    obtain rfl : u = t :=
      eq_of_number_eq Timer.number hnumbered.ordered hmem ht (by simpa using hnumber)
    rw [hat] at hnot
    cases hnot
  · rw [htimers]
    exact hnumbered.bounded t ht

theorem countAt_cancel_of_ne {place : String} (h : place ≠ node)
    (timers : Scheduler Continuation) :
    (timers.cancel run node).countAt run place = timers.countAt run place := by
  simp only [Scheduler.cancel, Scheduler.countAt, List.countP_filter]
  refine List.countP_congr fun t _ => ?_
  simp only [Timer.isAt, Bool.and_eq_true, Bool.not_eq_true', Bool.and_eq_false_iff, beq_iff_eq,
    beq_eq_false_iff_ne]
  constructor
  · exact fun h => h.1
  · rintro ⟨hrun, rfl⟩
    exact ⟨⟨hrun, rfl⟩, .inr h⟩

/-- The nodes that the record of a live run shows. -/
theorem Reachable.mem_currentNodes (h : e.Reachable) (hr : e.runs.get? run = some r)
    (hlive : run ∈ e.liveRuns) {place : String} :
    place ∈ r.currentNodes ↔ e.SendsAt run place ∨ 0 < e.timers.countAt run place := by
  obtain ⟨l, hl⟩ := Option.isSome_iff_exists.1 (mem_liveRuns_iff.1 hlive)
  have hshown : r.currentNodes = l.nodes ∧ l.occupied.Perm (e.about run).places := by
    cases h.sited run with
    | nowhere hn => exact ⟨hn.shows hr hl, hn.perm hl⟩
    | placed hp => exact ⟨hp.shown r l hr hl, hp.occupied l hl⟩
  rw [hshown.1, Live.mem_nodes, hshown.2.mem_iff, mem_places]

/-- A live run is live or has completed when delays of it have been called off. -/
theorem ends_cancelDelay (hc : e.Coherent) (hl : (e.about run).live = some l) (now : Int)
    (node : String) :
    (((e.cancelDelay now run node).1.about run).live.isSome = true ∨
      (e.cancelDelay now run node).1.status? run = some .completed) ∧
    (e.cancelDelay now run node).1.status? run ≠ some .failed := by
  obtain ⟨r, hg, -⟩ := hc.going hl
  rw [status?_eq]
  rw [cancelDelay_eq]
  split
  · obtain ⟨r₁, l₁, hg₁, -⟩ :=
      (going_undelayed hg node).walked_of (walked_undelayed e now run node).own
    rcases about_complete_of_going hg₁ now with heq | heq
    · rw [heq, hg₁.live, hg₁.record]
      exact ⟨.inl rfl, fun hs => hg₁.not_failed (Option.some.inj hs)⟩
    · rw [heq]
      exact ⟨.inr rfl, fun hs => by cases hs⟩
  · have hrecord : ((e.undelayed run node).about run).record = some r := hg.record
    have hlive : ((e.undelayed run node).about run).live = some l := hl
    rw [hrecord, hlive]
    exact ⟨.inl rfl, fun hs => hg.not_failed (Option.some.inj hs)⟩

/-- A run completes with its delays at a node just if these were all that it had left to do. -/
theorem completes_cancelDelay_iff (hc : e.Coherent) (now : Int) (run node : String) :
    ((e.cancelDelay now run node).1.status? run = some .completed ∧
      e.status? run ≠ some .completed) ↔
    run ∈ e.liveRuns ∧ e.Returned run ∧
      e.timers.count run + e.resumed run = e.timers.countAt run node := by
  have hdesk := desk_cancelDelay e now run node
  have hunstarted : (e.cancelDelay now run node).1.unstarted = e.unstarted :=
    congrArg Desk.unstarted hdesk
  have hsending : (e.cancelDelay now run node).1.sending = e.sending := congrArg Desk.sending hdesk
  have htimers : (e.cancelDelay now run node).1.timers = e.timers.cancel run node :=
    congrArg Desk.timers hdesk
  have hlength := length_timers_undelayed e run node
  rw [← count_timers, ← count_timers] at hlength
  have hcount : (e.timers.cancel run node).count run + e.timers.countAt run node =
      e.timers.count run := hlength
  have hiff := completes_iff hc now (t := .cancelDelay run node) trivial run
  simp only [take, due, Returned, resumed, hunstarted, hsending, htimers] at hiff
  rw [hiff, mem_liveRuns_iff]
  refine and_congr_right fun hlive => and_congr_right fun _ => ?_
  obtain ⟨l, hl⟩ := Option.isSome_iff_exists.1 hlive
  have hnot := (ends_cancelDelay hc hl now node).2
  simp only [resumed]
  constructor
  · rintro ⟨hdue, -⟩
    omega
  · intro hall
    exact ⟨by omega, hnot⟩

/-- **Delays are called off**, and with them nothing else. -/
theorem Reachable.calledOff (h : e.Reachable) (now : Int) (run node : String) :
    CalledOff run node e (e.cancelDelay now run node).1 := by
  have hc := h.coherent
  have hdesk := desk_cancelDelay e now run node
  have hsending : (e.cancelDelay now run node).1.sending = e.sending := congrArg Desk.sending hdesk
  have htimers : (e.cancelDelay now run node).1.timers = e.timers.cancel run node :=
    congrArg Desk.timers hdesk
  have hreach : (e.cancelDelay now run node).1.Reachable :=
    h.take now (t := .cancelDelay run node) trivial
  have hwanes : Wanes e (e.cancelDelay now run node).1 :=
    wanes_take hc now (t := .cancelDelay run node) id
  constructor
  case gone => exact fun t ht hat => fire_of_calledOff hc ht hat htimers
  case timers => rw [htimers]; rfl
  case walks => exact ⟨hsending, congrArg Desk.unstarted hdesk⟩
  case others => exact fun other hne => about_cancelDelay_of_ne hne now node
  case elsewhere =>
    intro r r' hr hr' hlive place hplace
    rw [h.mem_currentNodes hr (hwanes.order.subset hlive), hreach.mem_currentNodes hr' hlive,
      htimers, countAt_cancel_of_ne hplace]
    simp only [SendsAt, hsending]
  case ends =>
    intro hlive
    obtain ⟨l, hl⟩ := Option.isSome_iff_exists.1 (mem_liveRuns_iff.1 hlive)
    rw [mem_liveRuns_iff, isLive_eq]
    exact (ends_cancelDelay hc hl now node).1
  case completes => exact completes_cancelDelay_iff hc now run node

end Engine

/-! ## The service -/

/-- Just the runs that are there and not live are in no state to be cancelled. -/
theorem Service.cancelRun_conflict_iff {s : Service} (h : s.Reachable) (run : String) :
    (∃ r, (s.cancelRun run).2 = .error (.refused r) ∧ r.kind = .conflict) ↔
      (s.runs.get? run).isSome = true ∧ run ∉ s.host.engine.liveRuns := by
  rw [Engine.mem_liveRuns_iff, Bool.not_eq_true]
  cases hr : s.runs.get? run with
  | none =>
    have hmissing : (s.cancelRun run).2 =
        refuse .notFound ("Execution with id '" ++ run ++ "' not found") .null := by
      unfold cancelRun Service.run
      rw [hr]
      rfl
    refine iff_of_false ?_ (by simp)
    rintro ⟨r, hrefused, hkind⟩
    rw [hmissing] at hrefused
    cases hrefused
    cases hkind
  | some r =>
    cases hlive : s.host.engine.isLive run with
    | false =>
      rw [cancelRun_of_not_live h hr hlive]
      exact iff_of_true ⟨_, rfl, rfl⟩ ⟨rfl, rfl⟩
    | true =>
      obtain ⟨r', hr'⟩ := cancelRun_of_live h hr hlive
      refine iff_of_false ?_ (by simp)
      rintro ⟨refusal, hrefused, -⟩
      rw [hr'] at hrefused
      cases hrefused

/-! ## All together -/

/-- **Cancellation is effective and exact**, whatever has happened to the engine before.

* Just the runs that are live can be cancelled.  They have then failed; to cancel another run
  changes nothing, and other runs take no notice.
* To cancel the runs of a flow is to cancel its live runs, in the order in which they started.
* To call off the delays of a run at a node gives their number, and does what `CalledOff` says.
* The service refuses as a conflict to cancel a run that is there and not live, and nothing else. -/
theorem cancellation (channel : String) {history : List (Int × Turn)}
    (ha : Engine.Admits { channel } history) {s : Service} (hs : s.Reachable) (now : Int) :
    let e := Engine.follow { channel } history
    (∀ run, ((e.cancelRun now run).2 = true ↔ run ∈ e.liveRuns) ∧
      (run ∈ e.liveRuns → Engine.Cancelled now run (e.cancelRun now run).1) ∧
      (run ∉ e.liveRuns → (e.cancelRun now run).1 = e) ∧
      ∀ other, other ≠ run → (e.cancelRun now run).1.about other = e.about other) ∧
    (∀ flowId, let (e', runs) := e.cancelFlowRuns now flowId
      runs = (Engine.startsOf flowId history).filter (fun run => decide (run ∈ e.liveRuns)) ∧
      (∀ run ∈ runs, Engine.Cancelled now run e') ∧
      ∀ run, run ∉ runs → e'.about run = e.about run) ∧
    (∀ run node,
      (e.cancelDelay now run node).2 =
        (e.timers.pending.filter fun t => t.isAt run node).length ∧
      Engine.CalledOff run node e (e.cancelDelay now run node).1) ∧
    ∀ run, (∃ r, (s.cancelRun run).2 = .error (.refused r) ∧ r.kind = .conflict) ↔
      (s.runs.get? run).isSome = true ∧ run ∉ s.host.engine.liveRuns := by
  intro e
  have hreach : e.Reachable := (Engine.Reachable.idle channel).follow ha
  have hc := hreach.coherent
  refine ⟨fun run => ⟨?_, fun hlive => ?_, fun hnot => ?_, fun other hne => ?_⟩,
    fun flowId => ⟨?_, fun run hrun => ?_, fun run hnot => ?_⟩,
    fun run node => ⟨?_, hreach.calledOff now run node⟩, fun run => ?_⟩
  · rw [Engine.cancelRun_snd, Engine.mem_liveRuns_iff]
  · exact Engine.cancelled_cancelRun hc now hlive
  · have hnone : (e.about run).live = none := by
      simpa [Engine.mem_liveRuns_iff, Engine.isLive_eq] using hnot
    rw [Engine.cancelRun_of_not_live hc now hnone]
  · exact Engine.about_cancelRun_of_ne hne now
  · refine (Engine.liveRunsOf_follow channel ha flowId).trans (List.filter_congr fun run _ => ?_)
    rw [Bool.eq_iff_iff, decide_eq_true_iff, Engine.mem_liveRuns_iff]
  · exact Engine.cancelled_cancelFlowRuns hc now hrun
  · exact Engine.about_take_of_ne hc.tidy now (t := .cancelFlowRuns flowId) trivial hnot
  · rw [Engine.cancelDelay_snd, Scheduler.countAt, List.countP_eq_length_filter]
  · exact Service.cancelRun_conflict_iff hs run

/-- One run waits for a message and for two delays, another has not begun; both are runs of one
flow.  A run of the service has come to its end. -/
theorem doubled_cancellation :
    let e := Engine.follow { channel := "mail" } [(0, .start "r" Engine.doubled order),
      (1, .begin "r"), (2, .reply 0 (.accepted "m")), (2, .start "q" Engine.doubled order)]
    let started := Service.welcoming.carryOut (.trigger "r" "f" order)
    let s : Service := { started with host := started.host.settle.advance 8000000000 }
    (e.cancelFlowRuns 3 "f").2 = ["r", "q"] ∧
      Engine.Cancelled 3 "q" (e.cancelFlowRuns 3 "f").1 ∧
      (e.cancelDelay 3 "r" "d").2 = 2 ∧ "r" ∈ (e.cancelDelay 3 "r" "d").1.liveRuns ∧
      ∃ r, (s.cancelRun "r").2 = .error (.refused r) ∧ r.kind = .conflict := by
  intro e started s
  have hadm : Engine.Admits { channel := "mail" } [(0, .start "r" Engine.doubled order),
      (1, .begin "r"), (2, .reply 0 (.accepted "m")), (2, .start "q" Engine.doubled order)] := by
    refine ⟨rfl, trivial, trivial, Option.isNone_iff_eq_none.1 ?_, trivial⟩
    decide +kernel
  have hwelcoming : Service.welcoming.Reachable :=
    (Service.Reachable.fresh (.mock "mail" 5) 0 true).follow ⟨rfl, trivial, trivial, trivial⟩
  have hnew : (Service.Step.operation (.trigger "r" "f" order)).Admitted Service.welcoming := by
    have hnone : (Service.welcoming.runs.get? "r").isNone = true := by decide +kernel
    exact Option.isNone_iff_eq_none.1 hnone
  have hreach : s.Reachable := (hwelcoming.take hnew).settle.advance 8000000000
  obtain ⟨-, hflow, hdelay, hconflict⟩ := cancellation "mail" hadm hreach 3
  obtain ⟨hruns, hcancelled, -⟩ := hflow "f"
  have hlist : (e.cancelFlowRuns 3 "f").2 = ["r", "q"] := by decide +kernel
  refine ⟨hlist, hcancelled "q" ?_, ?_, by decide +kernel, (hconflict "r").2 ?_⟩
  · show "q" ∈ (e.cancelFlowRuns 3 "f").2
    rw [hlist]
    decide
  · rw [(hdelay "r" "d").1]
    decide +kernel
  · exact ⟨by decide +kernel, by decide +kernel⟩

end Campaign
