import Campaign.Proofs.Engine.History
import Campaign.Proofs.Engine.Phase
import Campaign.Proofs.Entries
import Campaign.Proofs.Numbering
/-!
# Every run is in one of its phases

A turn is about one run (`Turn.Concerns`) and leaves the others as they are (`about_take_of_ne`).
Every run goes from one of its phases to another (`phase_take`).  So in every reachable engine every
run is in one of its phases, and no number is given twice (`Reachable.coherent`).
-/
namespace Campaign

/-- Whether a turn is about a run. -/
def Turn.Concerns (e : Engine) (run : String) : Turn → Prop
  | .start r _ _ | .begin r | .cancelRun r | .cancelDelay r _ => r = run
  | .reply ticket _ => ∃ s, e.sending.lookup ticket = some s ∧ s.run = run
  | .fire timer => ∃ t, e.timers.find? timer = some t ∧ t.run = run
  | .cancelFlowRuns flowId => run ∈ e.liveRunsOf flowId
  | .served _ | .told _ => False

namespace Engine

/-- What holds in every reachable engine. -/
structure Coherent (e : Engine) : Prop where
  tidy : e.desk.Tidy
  phase : ∀ run, (e.about run).Unknown ∨ (e.about run).Known

variable {e : Engine} {now : Int} {run s : String} {r : Run} {l : Live}

theorem Coherent.known (h : e.Coherent) (hr : (e.about run).record = some r) :
    (e.about run).Known :=
  (h.phase run).resolve_left fun hu => by simp [hu.record] at hr

theorem Coherent.unknown (h : e.Coherent) (hr : e.runs.get? run = none) :
    (e.about run).Unknown := by
  refine (h.phase run).resolve_right fun hk => ?_
  have hsome : (e.runs.get? run).isSome := hk.record
  rw [hr] at hsome
  cases hsome

/-- A live run is going, and has something left to do. -/
theorem Coherent.going (h : e.Coherent) (hl : (e.about run).live = some l) :
    ∃ r, (e.about run).Going [] r l ∧ (l.walked → 0 < l.outstanding) := by
  rcases h.phase run with hu | hk
  · exact absurd hl (by simp [hu.live])
  · cases hk with
    | going r l' hg hbusy =>
      obtain rfl : l' = l := Option.some.inj (hg.live.symm.trans hl)
      exact ⟨r, hg, hbusy⟩
    | ended _ _ _ hl' => exact absurd hl (by simp [hl'])

/-! ## Walks that go on -/

theorem proceed_eq (hl : (e.about run).live = some l) (flowId : String) (origin : Origin)
    (stops : List Stop) : e.proceed now run flowId origin stops =
      conclude now run flowId origin (walk now run l.flow l.context e stops) := by
  have h : e.live.get? run = some l := hl
  simp only [proceed, h]

/-- To go on with a walk is to walk and to conclude. -/
theorem exists_proceed (e : Engine) (now : Int) (run flowId : String) (origin : Origin)
    (stops : List Stop) : ∃ said delays e' halt, Walked run said delays e e' ∧
      e.proceed now run flowId origin stops = conclude now run flowId origin (e', halt) := by
  unfold proceed
  split
  · exact ⟨_, _, _, _, walked_walk _ _ _ _ _ _, rfl⟩
  · exact ⟨_, _, _, _, .refl _ _, rfl⟩

theorem tidy_proceed (ht : e.desk.Tidy) (flowId : String) (origin : Origin) (stops : List Stop) :
    (e.proceed now run flowId origin stops).desk.Tidy := by
  obtain ⟨_, _, e', halt, hw, heq⟩ := exists_proceed e now run flowId origin stops
  rw [heq]
  exact tidy_conclude (tidy_of_walked hw ht) _ _

theorem about_proceed_of_ne (hs : s ≠ run) (flowId : String) (origin : Origin)
    (stops : List Stop) : (e.proceed now run flowId origin stops).about s = e.about s := by
  obtain ⟨_, _, e', halt, hw, heq⟩ := exists_proceed e now run flowId origin stops
  rw [heq, about_conclude_of_ne hs, hw.others s hs]

theorem known_proceed {origin : Origin} (h : (e.about run).Going [origin] r l) (flowId : String)
    (stops : List Stop) : ((e.proceed now run flowId origin stops).about run).Known := by
  rw [proceed_eq h.live]
  obtain ⟨_, _, hg, _⟩ := h.walked_of (walked_walk now run l.flow l.context e stops).own
  exact known_conclude hg _ _

/-! ## Starts -/

theorem about_start (now : Int) (flow : Flow) (event : Event) :
    (e.start now run flow event).about run = { e.about run with
      record := some (({ id := run, flowId := flow.id, startedAt := .utc now } : Run).logged now
        .info ("Starting run for flow: " ++ flow.name) .null)
      live := some { flow, event }
      unstarted := (e.about run).unstarted + 1 } := by
  simp only [start]
  rw [about_note_of_not (by simp [Notice.schedules]), about_emit, about_log]
  simp [about, RunStore.create, RunStore.get?, OrderedMap.get?_put, List.count_append]

theorem about_start_of_ne (hs : s ≠ run) (now : Int) (flow : Flow) (event : Event) :
    (e.start now run flow event).about s = e.about s := by
  simp only [start]
  rw [about_note_of_not (by simp [Notice.schedules]), about_emit, about_log_of_ne hs]
  simp [about, RunStore.create, RunStore.get?, OrderedMap.get?_put, List.count_append, hs,
    List.count_eq_zero_of_not_mem]

theorem known_start (h : (e.about run).Unknown) (now : Int) (flow : Flow) (event : Event) :
    ((e.start now run flow event).about run).Known := by
  rw [about_start]
  refine .going _ _ ⟨rfl, rfl, ?_, ?_, ?_, rfl⟩ (by simp)
  · simp [Run.logged]
  · simp [h.timers, h.sending, Share.origins]
  · simp [h.unstarted, h.sending, Share.origins]

/-! ## Beginnings -/

/-- The engine when the walk of a run is no longer to begin. -/
def begun (e : Engine) (run : String) : Engine := { e with unstarted := e.unstarted.erase run }

theorem begin_eq (e : Engine) (now : Int) (run : String) : e.begin now run =
    if run ∈ e.unstarted then
      match e.live.get? run with
      | none => e.begun run
      | some l =>
        match l.flow.triggers with
        | [] => ((e.begun run).setStatus run .running id).fail now run "No TRIGGER node found"
        | trigger :: _ =>
          (((e.begun run).setStatus run .running id).log now run .info
            ("Triggered by: " ++ trigger.label) (.object [("payload", l.event.wire)])).proceed now
              run l.flow.id .trigger (l.flow.behind trigger.id [trigger.id] .everywhere)
    else e := rfl

/-- A walk that has begun does not begin again. -/
theorem take_begin_of_not_mem (hu : run ∉ e.unstarted) (now : Int) :
    e.take now (.begin run) = e := by
  simp only [take, begin_eq, if_neg hu]

theorem about_begun : (e.begun run).about s = { e.about s with
    unstarted := (e.about s).unstarted - if s = run then 1 else 0 } := by
  by_cases h : s = run
  · simp [about, begun, h]
  · simp [about, begun, h, List.count_erase_of_ne h]

theorem tidy_begun (ht : e.desk.Tidy) : (e.begun run).desk.Tidy :=
  ⟨ht.timers, ht.ordered, ht.bounded, ht.asked⟩

/-- A run that is going and whose walk is to begin has nothing else to do. -/
theorem going_begin (h : (e.about run).Going [] r l) (hu : (e.about run).unstarted ≠ 0) :
    (((e.begun run).setStatus run .running id).about run).Going [.trigger]
      { r with status := .running } l := by
  have hs : r.status = .pending := by rw [h.status, if_neg hu]
  have hout := h.outstanding
  have hwalked := h.walked
  have hrec : ((e.begun run).about run).record = some r := h.record
  have hone : (e.about run).unstarted = 1 := by
    split at hwalked <;> omega
  rw [about_setStatus hrec (by simp [hs, RunStatus.allowed]), about_begun]
  refine ⟨rfl, h.live, ?_, ?_, ?_, h.error⟩
  · simp [hone]
  · simpa [Share.origins, Origin.isFirst] using hout
  · simp only [Share.origins, List.append_nil, List.countP_append, List.countP_singleton,
      Origin.isFirst, if_true] at hwalked ⊢
    omega

theorem tidy_begin (ht : e.desk.Tidy) (now : Int) (run : String) :
    (e.begin now run).desk.Tidy := by
  rw [begin_eq]
  split
  · split
    · exact tidy_begun ht
    · split
      · exact tidy_fail (by simpa using tidy_begun ht) _
      · exact tidy_proceed (by simpa using tidy_begun ht) _ _ _
  · exact ht

theorem about_begin_of_ne (hs : s ≠ run) (now : Int) :
    (e.begin now run).about s = e.about s := by
  have hb : (e.begun run).about s = e.about s := by simp [about_begun, hs]
  rw [begin_eq]
  split
  · split
    · exact hb
    · split
      · simp [hs, hb]
      · simp [about_proceed_of_ne, hs, hb]
  · rfl

theorem known_begin (h : (e.about run).Known) (now : Int) :
    ((e.begin now run).about run).Known := by
  rw [begin_eq]
  split
  case isFalse => exact h
  rename_i hu
  have hcount : (e.about run).unstarted ≠ 0 := Nat.ne_of_gt (List.count_pos_iff.2 hu)
  cases h with
  | ended r hr ht hl htm hc =>
    have hget : e.live.get? run = none := hl
    simp only [hget, about_begun]
    refine .ended r hr ht hl htm fun hcs => ⟨?_, (hc hcs).2⟩
    simp [(hc hcs).1]
  | going r l hg =>
    have hget : e.live.get? run = some l := hg.live
    simp only [hget]
    have hg' := going_begin hg hcount
    split
    · exact known_fail hg' _
    · obtain ⟨_, _, hlog, _⟩ := hg'.walked_of (walked_log _ _ _ _).own
      exact known_proceed hlog _ _

/-! ## Replies -/

/-- The engine when the message of a ticket is no longer under way. -/
def answered (e : Engine) (ticket : Nat) : Engine :=
  { e with sending := e.sending.filter fun entry => entry.1 != ticket }

theorem reply_eq (e : Engine) (now : Int) (ticket : Nat) (reply : Reply) :
    e.reply now ticket reply =
      match e.sending.lookup ticket with
      | none => e
      | some sd => (e.answered ticket).afterReply now sd reply := rfl

/-- A reply for which no walk waits does nothing. -/
theorem take_reply_of_none {ticket : Nat} (hsd : e.sending.lookup ticket = none) (now : Int)
    (reply : Reply) : e.take now (.reply ticket reply) = e := by
  simp only [take, reply_eq, hsd]

theorem mem_of_lookup_sending {ticket : Nat} {sd : Sending}
    (h : e.sending.lookup ticket = some sd) : (ticket, sd) ∈ e.sending := by
  obtain ⟨before, after, h, _⟩ := List.lookup_eq_some_iff.1 h
  simp [h]

theorem lookup_sending (ht : e.desk.Tidy) {ticket : Nat} {sd : Sending}
    (hm : (ticket, sd) ∈ e.sending) : e.sending.lookup ticket = some sd := by
  cases hfound : e.sending.lookup ticket with
  | none => exact absurd (List.lookup_eq_none_iff.1 hfound _ hm) (by simp)
  | some other =>
    have heq := eq_of_number_eq Prod.fst ht.ordered (mem_of_lookup_sending hfound) hm rfl
    rw [Prod.mk.inj heq |>.2]

theorem tidy_answered (ht : e.desk.Tidy) (ticket : Nat) : (e.answered ticket).desk.Tidy where
  timers := ht.timers
  ordered := ht.ordered.filter _
  bounded := fun entry he => ht.bounded entry (List.mem_filter.1 he).1
  asked := ht.asked

theorem about_answered_of_ne (ht : e.desk.Tidy) {ticket : Nat} {sd : Sending}
    (hm : (ticket, sd) ∈ e.sending) (hs : s ≠ sd.run) :
    (e.answered ticket).about s = e.about s := by
  have h := filter_filter_number Prod.fst ht.ordered hm
    (p := fun entry => entry.2.run == s) (by simpa using Ne.symm hs)
  simp only [desk] at h
  simp only [about, answered, h]

/-- The walks of a run before and after one of them is taken up again. -/
theorem perm_sending_answered (ht : e.desk.Tidy) {ticket : Nat} {sd : Sending}
    (hm : (ticket, sd) ∈ e.sending) : (e.about sd.run).sending.Perm
      ((ticket, sd) :: ((e.answered ticket).about sd.run).sending) := by
  have h := (perm_cons_filter_number Prod.fst ht.ordered hm).filter
    fun entry => entry.2.run == sd.run
  simpa [about, answered, desk] using h

/-- A walk that is taken up again is accounted for as before. -/
theorem going_answered (ht : e.desk.Tidy) {ticket : Nat} {sd : Sending}
    (hm : (ticket, sd) ∈ e.sending) (h : (e.about sd.run).Going [] r l) :
    ((e.answered ticket).about sd.run).Going [sd.origin] r l := by
  have hperm : ((e.about sd.run).origins ++ []).Perm
      (((e.answered ticket).about sd.run).origins ++ [sd.origin]) := by
    rw [List.append_nil]
    refine .trans ?_ (List.perm_append_singleton sd.origin _).symm
    simpa [Share.origins] using (perm_sending_answered ht hm).map fun entry => entry.2.origin
  refine ⟨h.record, h.live, h.status, ?_, ?_, h.error⟩
  · rw [← hperm.countP_eq]
    exact h.outstanding
  · rw [← hperm.countP_eq]
    exact h.walked

/-- When its message has been answered, a walk goes on or comes to a halt. -/
theorem exists_afterReply (e : Engine) (now : Int) (sd : Sending) (reply : Reply) :
    ∃ said delays e' halt, Walked sd.run said delays e e' ∧
      e.afterReply now sd reply = conclude now sd.run sd.flowId sd.origin (e', halt) := by
  simp only [afterReply]
  split
  · exact ⟨_, _, _, _, walked_failNode _ _ _, rfl⟩
  · exact ⟨_, _, _, _, .refl _ _, rfl⟩
  · exact ⟨_, _, _, _, walked_failNode _ _ _, rfl⟩
  · exact ⟨_, _, _, _, walked_failNode _ _ _, rfl⟩
  · obtain ⟨_, _, e', halt, hw, heq⟩ := exists_proceed _ now sd.run sd.flowId sd.origin _
    exact ⟨_, _, e', halt, ((walked_log _ _ _ _).trans (walked_leave _)).trans hw, heq⟩

/-- A run that has ended takes no notice of a message that went out. -/
theorem about_afterReply_of_ended (sd : Sending) (hr : (e.about sd.run).record = some r)
    (ht : r.status.terminal) (hl : (e.about sd.run).live = none) (reply : Reply) :
    (e.afterReply now sd reply).about sd.run = e.about sd.run := by
  have hget : e.live.get? sd.run = none := hl
  cases reply with
  | accepted id =>
    simp only [afterReply, hget]
    exact about_conclude_of_ended hr ht hl _ (by simp)
  | declined =>
    simp only [afterReply, hget]
    exact about_conclude_of_ended hr ht hl _ (by simp)
  | failed failure =>
    simp only [afterReply, hget]
    have hleft : (e.failNode now sd.run sd.node failure).about sd.run = e.about sd.run := by
      simp [failNode, isLive_eq, hl, about_leave_of_none]
    rw [about_conclude_of_ended (by rw [hleft, hr]) ht (by rw [hleft, hl]) _ (by simp), hleft]

theorem tidy_reply (ht : e.desk.Tidy) (now : Int) (ticket : Nat) (reply : Reply) :
    (e.reply now ticket reply).desk.Tidy := by
  rw [reply_eq]
  split
  · exact ht
  · rename_i sd _
    obtain ⟨_, _, e', halt, hw, heq⟩ := exists_afterReply (e.answered ticket) now sd reply
    rw [heq]
    exact tidy_conclude (tidy_of_walked hw (tidy_answered ht ticket)) _ _

theorem about_reply_of_ne (ht : e.desk.Tidy) (now : Int) {ticket : Nat} (reply : Reply)
    (hs : ∀ sd, e.sending.lookup ticket = some sd → sd.run ≠ s) :
    (e.reply now ticket reply).about s = e.about s := by
  rw [reply_eq]
  split
  · rfl
  · rename_i sd hsd
    have hne : s ≠ sd.run := (hs sd hsd).symm
    obtain ⟨_, _, e', halt, hw, heq⟩ := exists_afterReply (e.answered ticket) now sd reply
    rw [heq, about_conclude_of_ne hne, hw.others s hne,
      about_answered_of_ne ht (mem_of_lookup_sending hsd) hne]

theorem known_reply (ht : e.desk.Tidy) (now : Int) {ticket : Nat} {sd : Sending} (reply : Reply)
    (hsd : e.sending.lookup ticket = some sd) (h : (e.about sd.run).Known) :
    ((e.reply now ticket reply).about sd.run).Known := by
  have hm := mem_of_lookup_sending hsd
  have hperm := perm_sending_answered ht hm
  rw [reply_eq]
  simp only [hsd]
  cases h with
  | ended r hr hterm hl htm hc =>
    rw [about_afterReply_of_ended (e := e.answered ticket) sd hr hterm hl]
    exact .ended r hr hterm hl htm fun hcs =>
      absurd ((hc hcs).2 ▸ hperm).length_eq (by simp)
  | going r l hg =>
    obtain ⟨_, _, e', halt, hw, heq⟩ := exists_afterReply (e.answered ticket) now sd reply
    obtain ⟨_, _, hg', _⟩ := (going_answered ht hm hg).walked_of hw.own
    rw [heq]
    exact known_conclude hg' _ _

/-! ## Timers that fire -/

/-- The engine when a timer is no longer set. -/
def rung (e : Engine) (number : Nat) : Engine :=
  { e with timers := { e.timers with
      pending := e.timers.pending.filter fun t => t.number != number } }

theorem fire_eq (e : Engine) (now : Int) (number : Nat) : e.fire now number =
    match e.timers.find? number with
    | none => e
    | some t =>
      match e.live.get? t.run with
      | none => e.rung number
      | some l =>
        (((e.rung number).leave t.run t.what.node.id).log now t.run .info
          ("Delay completed for " ++ t.what.node.label) .null).proceed now t.run l.flow.id
            (.delay t.what.node.id) (l.flow.behind t.what.node.id t.what.path .everywhere) := by
  unfold fire Scheduler.fire
  cases e.timers.find? number <;> rfl

/-- A timer that is not there does nothing. -/
theorem take_fire_of_none {number : Nat} (hfind : e.timers.find? number = none) (now : Int) :
    e.take now (.fire number) = e := by
  simp only [take, fire_eq, hfind]

theorem tidy_rung (ht : e.desk.Tidy) (number : Nat) : (e.rung number).desk.Tidy :=
  ⟨ht.timers.filter _, ht.ordered, ht.bounded, ht.asked⟩

theorem about_rung_of_ne (ht : e.desk.Tidy) {t : Timer Continuation}
    (hm : t ∈ e.timers.pending) (hs : s ≠ t.run) : (e.rung t.number).about s = e.about s := by
  have h := filter_filter_number Timer.number ht.timers.ordered hm
    (p := fun t => t.run == s) (by simpa using Ne.symm hs)
  simp only [desk] at h
  simp only [about, rung, h]

/-- The timers of a run before and after one of them fires. -/
theorem perm_timers_rung (ht : e.desk.Tidy) {t : Timer Continuation}
    (hm : t ∈ e.timers.pending) :
    (e.about t.run).timers.Perm (t :: ((e.rung t.number).about t.run).timers) := by
  have h := (perm_cons_filter_number Timer.number ht.timers.ordered hm).filter
    fun u => u.run == t.run
  simpa [about, rung, desk] using h

/-- A delay that is over is accounted for as a walk. -/
theorem going_rung (ht : e.desk.Tidy) {t : Timer Continuation} (hm : t ∈ e.timers.pending)
    (node : String) (h : (e.about t.run).Going [] r l) :
    ((e.rung t.number).about t.run).Going [.delay node] r l := by
  have hlen := (perm_timers_rung ht hm).length_eq
  have hout := h.outstanding
  have hwalked := h.walked
  simp only [List.append_nil, List.length_cons] at hlen hout hwalked
  refine ⟨h.record, h.live, h.status, ?_, ?_, h.error⟩
  · simp only [List.countP_append, List.countP_singleton, Origin.isFirst, Bool.not_false, if_true]
    change _ = (((e.rung t.number).about t.run).timers.length : Int) +
      (((e.about t.run).origins.countP fun o => !o.isFirst) + 1 : Nat)
    omega
  · simp only [List.countP_append, List.countP_singleton, Origin.isFirst, Bool.false_eq_true,
      if_false, Nat.add_zero]
    exact hwalked

theorem tidy_fire (ht : e.desk.Tidy) (now : Int) (number : Nat) :
    (e.fire now number).desk.Tidy := by
  rw [fire_eq]
  split
  · exact ht
  · split
    · exact tidy_rung ht number
    · exact tidy_proceed (by simpa using tidy_rung ht number) _ _ _

theorem about_fire_of_ne (ht : e.desk.Tidy) (now : Int) {number : Nat}
    (hs : ∀ t, e.timers.find? number = some t → t.run ≠ s) :
    (e.fire now number).about s = e.about s := by
  rw [fire_eq]
  split
  · rfl
  · rename_i t hfind
    obtain ⟨hm, rfl⟩ := Scheduler.mem_of_find? hfind
    have hne : s ≠ t.run := (hs t hfind).symm
    have hr := about_rung_of_ne ht hm hne
    split
    · exact hr
    · rw [about_proceed_of_ne hne, about_log_of_ne hne, about_leave_of_ne hne, hr]

theorem known_fire (ht : e.desk.Tidy) (now : Int) {number : Nat} {t : Timer Continuation}
    (hfind : e.timers.find? number = some t) (h : (e.about t.run).Known) :
    ((e.fire now number).about t.run).Known := by
  obtain ⟨hm, hnum⟩ := Scheduler.mem_of_find? hfind
  have hperm := perm_timers_rung ht hm
  rw [fire_eq]
  simp only [hfind]
  cases h with
  | ended _ _ _ _ hnil => exact absurd (hnil ▸ hperm).length_eq (by simp)
  | going r l hg =>
    have hget : e.live.get? t.run = some l := hg.live
    simp only [hget]
    obtain ⟨_, _, hg', _⟩ := (hnum ▸ going_rung ht hm t.what.node.id hg).walked_of
      ((walked_leave t.what.node.id).trans (walked_log now .info
        ("Delay completed for " ++ t.what.node.label) .null)).own
    exact known_proceed hg' _ _

/-! ## Cancellation -/

theorem tidy_cancelRun (ht : e.desk.Tidy) (now : Int) (run : String) :
    (e.cancelRun now run).1.desk.Tidy := by
  simp only [cancelRun]
  split
  · exact tidy_fail (by simpa using tidy_dropTimers ht) _
  · exact tidy_dropTimers ht

theorem about_cancelRun_of_ne (hs : s ≠ run) (now : Int) :
    (e.cancelRun now run).1.about s = e.about s := by
  simp only [cancelRun]
  split <;> simp [hs]

/-- A cancelled run that was going has failed. -/
theorem about_cancelRun_of_going {walking : List Origin} (h : (e.about run).Going walking r l)
    (now : Int) : (e.cancelRun now run).1.about run = { e.about run with
      record := some (r.failed now cancelled), live := none, timers := [] } := by
  have hlive : (e.dropTimers now run).isLive run = true := by simp [isLive_eq, h.live]
  simp only [cancelRun, hlive, if_true]
  rw [about_fail (r := r) (by simp [h.record]) h.not_terminal]
  simp

/-- A run that is not live is not cancelled. -/
theorem about_cancelRun_of_none (hl : (e.about run).live = none) (htm : (e.about run).timers = [])
    (now : Int) : (e.cancelRun now run).1.about run = e.about run := by
  have hlive : (e.dropTimers now run).isLive run = false := by simp [isLive_eq, hl]
  simp only [cancelRun, hlive, Bool.false_eq_true, if_false, about_dropTimers, ← htm]

theorem known_cancelRun (h : (e.about run).Known) (now : Int) :
    ((e.cancelRun now run).1.about run).Known := by
  cases h with
  | ended r hr ht hl htm hc =>
    rw [about_cancelRun_of_none hl htm]
    exact .ended r hr ht hl htm hc
  | going r l hg =>
    rw [about_cancelRun_of_going hg]
    exact .ended (r.failed now cancelled) rfl rfl rfl rfl fun hc => by cases hc

/-- The engine when the timers of a run at a node are dropped. -/
def undelayed (e : Engine) (run node : String) : Engine :=
  { e with timers := e.timers.cancel run node }

theorem cancelDelay_eq (e : Engine) (now : Int) (run node : String) :
    (e.cancelDelay now run node).1 =
      if e.isLive run && e.timers.countAt run node ≠ 0 then
        (((((e.undelayed run node).withLive run fun l =>
          { l with outstanding := l.outstanding - e.timers.countAt run node }).leaveTimes run node
            (e.timers.countAt run node)).log now run .warn ("Delay cancelled for node " ++ node)
              .null).complete now run)
      else e.undelayed run node := by
  simp only [cancelDelay, apply_ite Prod.fst]
  rfl

/-- What is written when delays of a run are called off. -/
theorem walked_undelayed (e : Engine) (now : Int) (run node : String) :
    let e' := (e.undelayed run node).withLive run fun l =>
      { l with outstanding := l.outstanding - e.timers.countAt run node }
    Walked run [(.warn, "Delay cancelled for node " ++ node)] [] e'
      ((e'.leaveTimes run node (e.timers.countAt run node)).log now run .warn
        ("Delay cancelled for node " ++ node) .null) :=
  (walked_leaveTimes _ run node _).trans (walked_log _ _ _ _)

theorem tidy_undelayed (ht : e.desk.Tidy) (run node : String) :
    (e.undelayed run node).desk.Tidy :=
  ⟨ht.timers.filter _, ht.ordered, ht.bounded, ht.asked⟩

theorem about_undelayed_of_ne (hs : s ≠ run) (node : String) :
    (e.undelayed run node).about s = e.about s := by
  have h : (e.timers.cancel run node).pending.filter (fun t => t.run == s) =
      e.timers.pending.filter fun t => t.run == s := by
    simp only [Scheduler.cancel, List.filter_filter]
    refine List.filter_congr fun t _ => ?_
    by_cases ht : t.run = s <;> simp [ht, hs, Timer.isAt]
  simp only [about, undelayed, h]

/-- The timers of a run that stay are those at other nodes. -/
theorem length_timers_undelayed (e : Engine) (run node : String) :
    ((e.undelayed run node).about run).timers.length + e.timers.countAt run node =
      (e.about run).timers.length := by
  simp only [about, undelayed, Scheduler.cancel, Scheduler.countAt, List.filter_filter]
  rw [List.countP_eq_length_filter]
  induction e.timers.pending with
  | nil => rfl
  | cons t ts ih =>
    by_cases hr : t.run = run
    · by_cases hn : t.node = node <;> simp [Timer.isAt, hr, hn] at ih ⊢ <;> omega
    · simp [Timer.isAt, hr] at ih ⊢
      omega

theorem tidy_cancelDelay (ht : e.desk.Tidy) (now : Int) (run node : String) :
    (e.cancelDelay now run node).1.desk.Tidy := by
  rw [cancelDelay_eq]
  split
  · simpa using tidy_of_walked (walked_undelayed e now run node) (tidy_undelayed ht run node)
  · exact tidy_undelayed ht run node

theorem about_cancelDelay_of_ne (hs : s ≠ run) (now : Int) (node : String) :
    (e.cancelDelay now run node).1.about s = e.about s := by
  rw [cancelDelay_eq]
  split
  · rw [about_complete_of_ne hs, (walked_undelayed e now run node).others s hs,
      about_withLive_of_ne hs, about_undelayed_of_ne hs]
  · exact about_undelayed_of_ne hs node

/-- A run that is going, when some of its delays have been called off. -/
theorem going_undelayed (h : (e.about run).Going [] r l) (node : String) :
    (((e.undelayed run node).withLive run fun l =>
      { l with outstanding := l.outstanding - e.timers.countAt run node }).about run).Going [] r
        { l with outstanding := l.outstanding - e.timers.countAt run node } := by
  have hlen := length_timers_undelayed e run node
  have hout := h.outstanding
  have hl : ((e.undelayed run node).about run).live = some l := h.live
  rw [about_withLive, hl]
  refine ⟨h.record, rfl, h.status, ?_, h.walked, h.error⟩
  change l.outstanding - _ = (((e.undelayed run node).about run).timers.length : Int) +
    (((e.about run).origins ++ []).countP fun o : Origin => !o.isFirst : Nat)
  omega

/-- What is held about a run without timers at a node does not change when they are dropped. -/
theorem about_undelayed_of_none {node : String} (h : e.timers.countAt run node = 0) :
    (e.undelayed run node).about run = e.about run := by
  have hkeep : (e.timers.cancel run node).pending = e.timers.pending := by
    refine List.filter_eq_self.2 fun t ht => ?_
    simpa using List.countP_eq_zero.1 h t ht
  simp only [about, undelayed, hkeep]

theorem countAt_eq_zero (htm : (e.about run).timers = []) (node : String) :
    e.timers.countAt run node = 0 := by
  have := length_timers_undelayed e run node
  simp only [htm, List.length_nil] at this
  omega

/-- Without timers there is no delay to cancel. -/
theorem about_cancelDelay_of_none (htm : (e.about run).timers = []) (now : Int) (node : String) :
    (e.cancelDelay now run node).1.about run = e.about run := by
  have hz := countAt_eq_zero htm node
  rw [cancelDelay_eq]
  simp [hz, about_undelayed_of_none hz]

theorem mem_liveRunsOf {flowId : String} :
    run ∈ e.liveRunsOf flowId ↔ ∃ l, e.live.get? run = some l ∧ l.flow.id = flowId := by
  simp only [liveRunsOf, List.mem_map, List.mem_filter, beq_iff_eq]
  constructor
  · rintro ⟨⟨key, l⟩, ⟨hm, hid⟩, rfl⟩
    exact ⟨l, OrderedMap.mem_entries.1 hm, hid⟩
  · rintro ⟨l, hl, hid⟩
    exact ⟨(run, l), ⟨OrderedMap.mem_entries.2 hl, hid⟩, rfl⟩

/-- Whichever runs are cancelled, one that is not live is left as it is. -/
theorem about_cancelRuns_of_none (hl : (e.about run).live = none)
    (htm : (e.about run).timers = []) (now : Int) (runs : List String) :
    (runs.foldl (fun e s => (e.cancelRun now s).1) e).about run = e.about run := by
  induction runs generalizing e with
  | nil => rfl
  | cons s runs ih =>
    have hstep : (e.cancelRun now s).1.about run = e.about run := by
      by_cases hne : run = s
      · subst hne
        exact about_cancelRun_of_none hl htm now
      · exact about_cancelRun_of_ne hne now
    rw [List.foldl_cons, ih (by rw [hstep, hl]) (by rw [hstep, htm]), hstep]

/-- Whichever runs are cancelled, one of them that was going has failed. -/
theorem about_cancelRuns_of_going (h : (e.about run).Going [] r l) (now : Int)
    {runs : List String} (hm : run ∈ runs) :
    (runs.foldl (fun e s => (e.cancelRun now s).1) e).about run = { e.about run with
      record := some (r.failed now cancelled), live := none, timers := [] } := by
  induction runs generalizing e with
  | nil => cases hm
  | cons s runs ih =>
    rw [List.foldl_cons]
    by_cases hne : run = s
    · subst hne
      have hstep := about_cancelRun_of_going h now
      rw [about_cancelRuns_of_none (by rw [hstep]) (by rw [hstep]), hstep]
    · have hstep := about_cancelRun_of_ne (e := e) hne now
      rw [ih (by rwa [hstep]) ((List.mem_cons.1 hm).resolve_left hne), hstep]

theorem known_cancelDelay (h : (e.about run).Known) (now : Int) (node : String) :
    ((e.cancelDelay now run node).1.about run).Known := by
  rw [cancelDelay_eq]
  by_cases hz : e.timers.countAt run node = 0
  · simpa [hz, about_undelayed_of_none hz] using h
  · cases h with
    | ended _ _ _ _ htm => exact absurd (countAt_eq_zero htm node) hz
    | going r l hg =>
      obtain ⟨_, _, hg', _⟩ :=
        (going_undelayed hg node).walked_of (walked_undelayed e now run node).own
      simpa [isLive_eq, hg.live, hz] using known_complete hg' now

/-! ## Turns -/

theorem tidy_start (ht : e.desk.Tidy) (now : Int) (run : String) (flow : Flow) (event : Event) :
    (e.start now run flow event).desk.Tidy := by
  simp only [start, desk_note, desk_emit (rfl : (Effect.begin run).isSend = false), desk_log]
  exact ⟨ht.timers, ht.ordered, ht.bounded, ht.asked⟩

theorem tidy_take (ht : e.desk.Tidy) (now : Int) {t : Turn} (ha : t.Admitted e) :
    (e.take now t).desk.Tidy := by
  cases t with
  | start run flow event => exact tidy_start ht now run flow event
  | begin run => exact tidy_begin ht now run
  | reply ticket reply => exact tidy_reply ht now ticket reply
  | fire timer => exact tidy_fire ht now timer
  | cancelRun run => exact tidy_cancelRun ht now run
  | cancelDelay run node => exact tidy_cancelDelay ht now run node
  | cancelFlowRuns flowId =>
    exact take_cancelFlowRuns_induction (p := fun e => e.desk.Tidy)
      (fun e now run ht => tidy_cancelRun ht now run) ht now flowId
  | served effects =>
    exact ⟨ht.timers, ht.ordered, ht.bounded, fun ticket message hm =>
      ha ticket message (List.mem_filter.1 hm).1⟩
  | told notice => exact ht

/-- A turn leaves alone what is held about the runs that it is not about. -/
theorem about_take_of_ne (ht : e.desk.Tidy) (now : Int) {t : Turn} (ha : t.Admitted e)
    (hs : ¬ t.Concerns e s) : (e.take now t).about s = e.about s := by
  cases t with
  | start run flow event => exact about_start_of_ne (Ne.symm hs) now flow event
  | begin run => exact about_begin_of_ne (Ne.symm hs) now
  | reply ticket reply =>
    exact about_reply_of_ne ht now reply fun sd hsd he => hs ⟨sd, hsd, he⟩
  | fire timer => exact about_fire_of_ne ht now fun t hfind he => hs ⟨t, hfind, he⟩
  | cancelRun run => exact about_cancelRun_of_ne (Ne.symm hs) now
  | cancelDelay run node => exact about_cancelDelay_of_ne (Ne.symm hs) now node
  | cancelFlowRuns flowId =>
    simp only [Turn.Concerns] at hs
    simp only [take, cancelFlowRuns]
    generalize e.liveRunsOf flowId = runs at hs ⊢
    clear ht ha
    induction runs generalizing e with
    | nil => rfl
    | cons run runs ih =>
      obtain ⟨hne, hmem⟩ := not_or.1 (mt List.mem_cons.2 hs)
      simp only [List.foldl_cons]
      rw [ih hmem, about_cancelRun_of_ne hne now]
  | served effects => rfl
  | told notice =>
    exact about_note_of_not (by simp [Notice.schedules, show notice.reporter = .sender from ha])

/-- Nothing happens to a run before its start. -/
theorem about_take_of_unknown (ht : e.desk.Tidy) (h : (e.about run).Unknown) (now : Int) {t : Turn}
    (ha : t.Admitted e) (hstart : ∀ flow event, t ≠ .start run flow event) :
    (e.take now t).about run = e.about run := by
  by_cases hs : t.Concerns e run
  case neg => exact about_take_of_ne ht now ha hs
  cases t with
  | start s flow event =>
    obtain rfl : s = run := hs
    exact absurd rfl (hstart flow event)
  | begin s =>
    obtain rfl : s = run := hs
    have hu : s ∉ e.unstarted := List.count_eq_zero.1 h.unstarted
    rw [take_begin_of_not_mem hu]
  | reply ticket reply =>
    obtain ⟨sd, hsd, rfl⟩ := hs
    exact absurd (h.sending ▸ perm_sending_answered ht (mem_of_lookup_sending hsd)).length_eq
      (by simp)
  | fire timer =>
    obtain ⟨t, hfind, rfl⟩ := hs
    have hperm := perm_timers_rung ht (Scheduler.mem_of_find? hfind).1
    exact absurd (h.timers ▸ hperm).length_eq (by simp)
  | cancelRun s =>
    obtain rfl : s = run := hs
    exact about_cancelRun_of_none h.live h.timers now
  | cancelDelay s node =>
    obtain rfl : s = run := hs
    exact about_cancelDelay_of_none h.timers now node
  | cancelFlowRuns flowId => exact about_cancelRuns_of_none h.live h.timers now _
  | served effects => rfl
  | told notice => exact hs.elim

/-- A run that was started goes from one of its phases to another. -/
theorem known_take (h : e.Coherent) (now : Int) {t : Turn} (ha : t.Admitted e) {s : String}
    (hk : (e.about s).Known) : ((e.take now t).about s).Known := by
  by_cases hs : t.Concerns e s
  case neg => exact about_take_of_ne h.tidy now ha hs ▸ hk
  cases t with
  | start run flow event =>
    obtain rfl : run = s := hs
    have hnone : (e.about run).record = none := ha
    exact absurd hk.record (by simp [hnone])
  | begin run =>
    obtain rfl : run = s := hs
    exact known_begin hk now
  | reply ticket reply =>
    obtain ⟨sd, hsd, rfl⟩ := hs
    exact known_reply h.tidy now reply hsd hk
  | fire timer =>
    obtain ⟨t, hfind, rfl⟩ := hs
    exact known_fire h.tidy now hfind hk
  | cancelRun run =>
    obtain rfl : run = s := hs
    exact known_cancelRun hk now
  | cancelDelay run node =>
    obtain rfl : run = s := hs
    exact known_cancelDelay hk now node
  | cancelFlowRuns flowId =>
    refine take_cancelFlowRuns_induction (p := fun e => (e.about s).Known) (fun e now run h => ?_)
      hk now flowId
    by_cases hr : s = run
    · subst hr
      exact known_cancelRun h now
    · exact (about_cancelRun_of_ne hr now).symm ▸ h
  | served effects => exact hs.elim
  | told notice => exact hs.elim

/-- **Every run goes from one of its phases to another.** -/
theorem phase_take (h : e.Coherent) (now : Int) {t : Turn} (ha : t.Admitted e) (s : String) :
    ((e.take now t).about s).Unknown ∨ ((e.take now t).about s).Known := by
  rcases h.phase s with hu | hk
  · by_cases hstart : ∃ flow event, t = .start s flow event
    · obtain ⟨flow, event, rfl⟩ := hstart
      exact .inr (known_start hu now flow event)
    · refine .inl ?_
      rw [about_take_of_unknown h.tidy hu now ha fun flow event he => hstart ⟨flow, event, he⟩]
      exact hu
  · exact .inr (known_take h now ha hk)

theorem coherent_take (h : e.Coherent) (now : Int) {t : Turn} (ha : t.Admitted e) :
    (e.take now t).Coherent :=
  ⟨tidy_take h.tidy now ha, phase_take h now ha⟩

theorem Coherent.follow (h : e.Coherent) {history : List (Int × Turn)} (ha : e.Admits history) :
    (e.follow history).Coherent :=
  follow_induction (fun _ now _ h ha => coherent_take h now ha) h ha

theorem coherent_idle (channel : String) : Coherent { channel } where
  tidy := ⟨.empty, .nil, by simp [desk], by simp [desk]⟩
  phase := fun _ => .inl ⟨rfl, rfl, rfl, rfl, rfl⟩

/-- **Every run of a reachable engine is in one of its phases.** -/
theorem Reachable.coherent (h : e.Reachable) : e.Coherent := by
  induction h with
  | idle channel => exact coherent_idle channel
  | take now _ ha ih => exact coherent_take ih now ha

end Engine

end Campaign
