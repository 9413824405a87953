import Campaign.Proofs.Engine.Coherence
/-!
# Runs that have ended

A run that has completed or failed is frozen: whatever happens afterwards, its record stays as it
is, no walk of it comes to wait for a reply again, and no delay of it begins.  Walks that waited for
a reply when the run ended come to their end without a trace.

* `Asked` says that whatever an engine newly asks to be sent comes from a walk that then waits for
  the reply; this ties the requests on the outside to the walks of a run (`asked_take`).
* `frozen_take` is the step, `Reachable.frozen` the statement for all that can follow.
-/
namespace Campaign

namespace Share

variable {a b : Share} {r : Run}

/-- What can become of a run that has ended: walks that wait for replies may come to their end. -/
structure Frozen (a b : Share) : Prop where
  record : b.record = a.record
  live : b.live = a.live
  unstarted : b.unstarted ≤ a.unstarted
  timers : b.timers = a.timers
  sending : b.sending.Sublist a.sending
  scheduled : b.scheduled = a.scheduled

theorem Frozen.refl (a : Share) : a.Frozen a := ⟨rfl, rfl, Nat.le_refl _, rfl, .refl _, rfl⟩

theorem Frozen.of_eq (h : b = a) : a.Frozen b := h ▸ .refl a

theorem Frozen.trans {c : Share} (h₁ : a.Frozen b) (h₂ : b.Frozen c) : a.Frozen c where
  record := h₂.record.trans h₁.record
  live := h₂.live.trans h₁.live
  unstarted := Nat.le_trans h₂.unstarted h₁.unstarted
  timers := h₂.timers.trans h₁.timers
  sending := h₂.sending.trans h₁.sending
  scheduled := h₂.scheduled.trans h₁.scheduled

end Share

namespace Engine

variable {e e' : Engine} {now : Int} {run s : String} {r : Run}

theorem count_timers (e : Engine) (run : String) :
    e.timers.count run = (e.about run).timers.length := List.countP_eq_length_filter

theorem count_eq_zero (h : (e.about run).timers = []) : e.timers.count run = 0 := by
  rw [count_timers, h]
  rfl

/-! ## One turn -/

theorem frozen_begin (hl : (e.about run).live = none) (now : Int) :
    (e.about run).Frozen ((e.begin now run).about run) := by
  have hget : e.live.get? run = none := hl
  rw [begin_eq]
  split
  · simp only [hget, about_begun]
    exact ⟨rfl, rfl, Nat.sub_le _ _, rfl, .refl _, rfl⟩
  · exact .refl _

/-- A run that has ended takes no notice of a reply. -/
theorem frozen_reply {ticket : Nat} {sd : Sending} (hsd : e.sending.lookup ticket = some sd)
    (hr : (e.about sd.run).record = some r) (ht : r.status.terminal)
    (hl : (e.about sd.run).live = none) (now : Int) (reply : Reply) :
    (e.about sd.run).Frozen ((e.reply now ticket reply).about sd.run) := by
  rw [reply_eq]
  simp only [hsd]
  rw [about_afterReply_of_ended (e := e.answered ticket) sd hr ht hl]
  exact ⟨rfl, rfl, Nat.le_refl _, rfl, List.filter_sublist.filter _, rfl⟩

/-- **A turn changes nothing about a run that has ended.** -/
theorem frozen_take (h : e.Coherent) (hr : (e.about run).record = some r)
    (hterm : r.status.terminal) (now : Int) {t : Turn} (ha : t.Admitted e) :
    (e.about run).Frozen ((e.take now t).about run) := by
  obtain ⟨hl, htm, _⟩ := (h.known hr).of_terminal hr hterm
  by_cases hs : t.Concerns e run
  case neg => exact .of_eq (about_take_of_ne h.tidy now ha hs)
  cases t with
  | start s flow event =>
    obtain rfl : s = run := hs
    have hnone : (e.about s).record = none := ha
    exact absurd hr (by simp [hnone])
  | begin s =>
    obtain rfl : s = run := hs
    exact frozen_begin hl now
  | reply ticket reply =>
    obtain ⟨sd, hsd, rfl⟩ := hs
    exact frozen_reply hsd hr hterm hl now reply
  | fire timer =>
    obtain ⟨t, hfind, rfl⟩ := hs
    have hperm := perm_timers_rung h.tidy (Scheduler.mem_of_find? hfind).1
    exact absurd (htm ▸ hperm).length_eq (by simp)
  | cancelRun s =>
    obtain rfl : s = run := hs
    exact .of_eq (about_cancelRun_of_none hl htm now)
  | cancelDelay s node =>
    obtain rfl : s = run := hs
    exact .of_eq (about_cancelDelay_of_none htm now node)
  | cancelFlowRuns flowId => exact .of_eq (about_cancelRuns_of_none hl htm now _)
  | served effects => exact hs.elim
  | told notice => exact hs.elim

/-! ## What the outside is asked to send -/

/-- Whether all that is newly asked to be sent comes from walks that wait for the reply. -/
def Asked (e e' : Engine) : Prop :=
  ∀ ticket message, .send ticket message ∈ e'.desk.requests →
    .send ticket message ∈ e.desk.requests ∨
      ∃ sd, (ticket, sd) ∈ e'.sending ∧ sd.message = message

theorem Asked.of_eq (h : e'.desk.requests = e.desk.requests) : Asked e e' :=
  fun _ _ hm => .inl (h ▸ hm)

theorem requests_fail (error : String) : (e.fail now run error).desk.requests =
    e.desk.requests := by
  unfold fail
  extract_lets ended
  split
  · simp
  · simp [desk_dropTimers]

theorem requests_cancelRun (e : Engine) (now : Int) (run : String) :
    (e.cancelRun now run).1.desk.requests = e.desk.requests := by
  simp only [cancelRun]
  split
  · simp [requests_fail, desk_dropTimers]
  · simp [desk_dropTimers]

theorem asked_conclude {said : List (LogLevel × String)} {delays : List Continuation}
    (hw : Walked run said delays e e') (flowId : String) (origin : Origin) (halt : Halt) :
    Asked e (conclude now run flowId origin (e', halt)) := by
  cases halt with
  | ended => exact .of_eq (by simp [conclude, hw.requests])
  | failed failure =>
    cases origin with
    | trigger => exact .of_eq (by simp [conclude, requests_fail, hw.requests])
    | delay node => exact .of_eq (by simp [conclude, requests_fail, hw.requests])
  | sending node path rest message =>
    intro ticket m hm
    have hreq := hw.requests
    simp only [desk] at hreq
    simp only [conclude, desk, emit, List.filter_append, hreq, List.mem_append] at hm ⊢
    refine hm.imp_right fun hm => ?_
    simp only [List.filter_cons, Effect.isSend, if_true, List.filter_nil, List.mem_singleton,
      Effect.send.injEq] at hm
    obtain ⟨rfl, rfl⟩ := hm
    exact ⟨_, .inr (List.mem_singleton_self _), rfl⟩

theorem asked_proceed (flowId : String) (origin : Origin) (stops : List Stop) :
    Asked e (e.proceed now run flowId origin stops) := by
  obtain ⟨_, _, e', halt, hw, heq⟩ := exists_proceed e now run flowId origin stops
  rw [heq]
  exact asked_conclude hw flowId origin halt

theorem Asked.congr_left {e₁ e₂ : Engine} (h : Asked e₁ e')
    (hd : e₁.desk.requests = e₂.desk.requests) : Asked e₂ e' := by
  intro ticket message hm
  rw [← hd]
  exact h ticket message hm

/-- **Whatever a turn asks to be sent comes from a walk that then waits for the reply.** -/
theorem asked_take (e : Engine) (now : Int) {t : Turn} (ht : ∀ effects, t ≠ .served effects) :
    Asked e (e.take now t) := by
  cases t with
  | start run flow event =>
    refine .of_eq ?_
    simp only [take, start, desk_note, desk_emit (rfl : (Effect.begin run).isSend = false),
      desk_log]
    rfl
  | begin run =>
    simp only [take, begin_eq]
    split
    · split
      · exact .of_eq rfl
      · split
        · refine .of_eq ?_
          rw [requests_fail, desk_setStatus]
          rfl
        · refine (asked_proceed _ _ _).congr_left ?_
          rw [desk_log, desk_setStatus]
          rfl
    · exact .of_eq rfl
  | reply ticket reply =>
    simp only [take, reply_eq]
    split
    · exact .of_eq rfl
    · rename_i sd _
      obtain ⟨_, _, e', halt, hw, heq⟩ := exists_afterReply (e.answered ticket) now sd reply
      rw [heq]
      exact (asked_conclude hw _ _ _).congr_left rfl
  | fire timer =>
    simp only [take, fire_eq]
    split
    · exact .of_eq rfl
    · split
      · exact .of_eq rfl
      · refine (asked_proceed _ _ _).congr_left ?_
        rw [desk_log, desk_leave]
        rfl
  | cancelRun run => exact .of_eq (requests_cancelRun e now run)
  | cancelDelay run node =>
    refine .of_eq ?_
    simp only [take, cancelDelay_eq]
    split
    · rw [desk_complete, (walked_undelayed e now run node).requests, desk_withLive]
      rfl
    · rfl
  | cancelFlowRuns flowId =>
    exact .of_eq (take_cancelFlowRuns_induction
      (p := fun e' => e'.desk.requests = e.desk.requests)
      (fun e' now run he => (requests_cancelRun e' now run).trans he) rfl now flowId)
  | served effects => exact absurd rfl (ht effects)
  | told notice => exact .of_eq rfl

/-! ## All that can follow -/

/-- The walks of a run that wait for replies, among all that do. -/
theorem mem_sending_of_frozen (hf : (e.about run).Frozen (e'.about run)) {entry : Nat × Sending}
    (he : entry ∈ e'.sending) (hrun : entry.2.run = run) : entry ∈ e.sending := by
  have hmem : entry ∈ (e'.about run).sending := List.mem_filter.2 ⟨he, by simpa using hrun⟩
  exact (List.mem_filter.1 (hf.sending.subset hmem)).1

/-- A turn asks for no message of a run that has ended. -/
theorem sent_of_terminal (h : e.Coherent) (hr : (e.about run).record = some r)
    (hterm : r.status.terminal) (now : Int) {t : Turn} (ha : t.Admitted e) {ticket : Nat}
    {message : Message} (hnew : e.tickets ≤ ticket)
    (hm : .send ticket message ∈ (e.take now t).effects) :
    ∃ sd, (ticket, sd) ∈ (e.take now t).sending ∧ sd.message = message ∧ sd.run ≠ run := by
  have hserved : ∀ effects, t ≠ .served effects := by
    rintro effects rfl
    exact absurd (ha ticket message hm) (Nat.not_lt.2 hnew)
  have hmem : .send ticket message ∈ (e.take now t).desk.requests := List.mem_filter.2 ⟨hm, rfl⟩
  rcases asked_take e now hserved ticket message hmem with hold | ⟨sd, hsd, hmsg⟩
  · exact absurd (h.tidy.asked ticket message hold) (Nat.not_lt.2 hnew)
  · refine ⟨sd, hsd, hmsg, fun hrun => ?_⟩
    have hsent := mem_sending_of_frozen (frozen_take h hr hterm now ha) hsd hrun
    exact absurd (h.tidy.bounded _ hsent) (Nat.not_lt.2 hnew)

/-- A history leaves a run that has ended as it is. -/
theorem Coherent.frozen_follow (h : e.Coherent) (hr : (e.about run).record = some r)
    (hterm : r.status.terminal) {history : List (Int × Turn)} (ha : e.Admits history) :
    (e.about run).Frozen ((e.follow history).about run) := by
  have hinv : (e.follow history).Coherent ∧
      (e.about run).Frozen ((e.follow history).about run) := by
    refine follow_induction (p := fun e' => e'.Coherent ∧ (e.about run).Frozen (e'.about run))
      ?_ ⟨h, .refl _⟩ ha
    rintro e' now t ⟨hcoh, hf⟩ hadm
    exact ⟨coherent_take hcoh now hadm,
      hf.trans (frozen_take hcoh (hf.record.trans hr) hterm now hadm)⟩
  exact hinv.2

theorem Reachable.frozen_follow (h : e.Reachable) (hr : (e.about run).record = some r)
    (hterm : r.status.terminal) {history : List (Int × Turn)} (ha : e.Admits history) :
    (e.about run).Frozen ((e.follow history).about run) :=
  h.coherent.frozen_follow hr hterm ha

/-- **A run that has ended is frozen.**  Whatever follows, its record stays as it is, no walk of it
comes to wait for a further reply and no delay of it begins; and whatever any later turn asks to be
sent comes from a walk of another run. -/
theorem Reachable.frozen (h : e.Reachable) (hr : e.runs.get? run = some r)
    (hterm : r.status.terminal) {history : List (Int × Turn)} (ha : e.Admits history) :
    (e.follow history).runs.get? run = some r ∧
      (∀ entry ∈ (e.follow history).sending, entry.2.run = run → entry ∈ e.sending) ∧
      (e.follow history).timers.count run = 0 ∧
      (e.follow history).notices.filter (Notice.schedules run) =
        e.notices.filter (Notice.schedules run) ∧
      ∀ now t, t.Admitted (e.follow history) → ∀ ticket message,
        (e.follow history).tickets ≤ ticket →
        .send ticket message ∈ ((e.follow history).take now t).effects →
          ∃ sd, (ticket, sd) ∈ ((e.follow history).take now t).sending ∧ sd.message = message ∧
            sd.run ≠ run := by
  have hf := h.frozen_follow hr hterm ha
  have hrec : ((e.follow history).about run).record = some r := hf.record.trans hr
  have hcoh := (h.follow ha).coherent
  refine ⟨hrec, fun entry => mem_sending_of_frozen hf, ?_, hf.scheduled,
    fun now t hadm ticket message => sent_of_terminal hcoh hrec hterm now hadm⟩
  exact count_eq_zero ((hcoh.known hrec).of_terminal hrec hterm).2.1

/-- A run that is cancelled while its message is under way: the reply changes nothing. -/
theorem greeting_frozen :
    let e := Engine.follow { channel := "mail" }
      [(0, .start "r" greeting order), (1, .begin "r"), (2, .cancelRun "r")]
    e.sending.length = 1 ∧ ∃ r, e.runs.get? "r" = some r ∧ r.status = .failed ∧
      (e.follow [(3, .reply 0 (.accepted "m"))]).runs.get? "r" = some r := by
  intro e
  have hreach : e.Reachable := (Reachable.idle "mail").follow ⟨rfl, trivial, trivial, trivial⟩
  have hstatus : (e.runs.get? "r").map Run.status = some .failed := by decide +kernel
  obtain ⟨r, hr, hs⟩ := Option.map_eq_some_iff.1 hstatus
  have hterm : r.status.terminal := by rw [hs]; rfl
  have hadm : e.Admits [(3, .reply 0 (.accepted "m"))] := ⟨trivial, trivial⟩
  exact ⟨by decide +kernel, r, hr, hs, (Reachable.frozen hreach hr hterm hadm).1⟩

end Engine

end Campaign
