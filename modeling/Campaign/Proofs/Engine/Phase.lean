import Campaign.Proofs.Engine.Walked
/-!
# The phases of a run

A run that was started is going until it ends, completed or failed (`Share.Known`).  While it is
going its walks are accounted for (`Share.Going`): the outstanding delays are its timers and its
walks behind a delay, and its first walk is still to begin, under way, or over.  A run that is going
has something left to do, and a run that has ended has no timers; one that has completed has no
walks either.

`known_conclude` is the main statement: wherever a walk of a run that is going comes to a halt, what
follows leaves the run in one of its phases.
-/
namespace Campaign

/-- Whether a walk is the first of its run. -/
def Origin.isFirst : Origin → Bool
  | .trigger => true
  | .delay _ => false

/-- Where the walks began that wait for replies. -/
def Share.origins (a : Share) : List Origin := a.sending.map fun entry => entry.2.origin

/-- A run that has not ended, with some walks that are just being carried out. -/
structure Share.Going (a : Share) (walking : List Origin) (r : Run) (l : Live) : Prop where
  record : a.record = some r
  live : a.live = some l
  status : r.status = if a.unstarted = 0 then .running else .pending
  /-- Each outstanding delay has a timer or a walk. -/
  outstanding : l.outstanding = a.timers.length + (a.origins ++ walking).countP fun o => !o.isFirst
  /-- The first walk is still to begin or under way, unless it is over. -/
  walked : a.unstarted + (a.origins ++ walking).countP Origin.isFirst = if l.walked then 0 else 1
  error : r.error = none

/-- Nothing is held about a run that was not started. -/
structure Share.Unknown (a : Share) : Prop where
  record : a.record = none
  live : a.live = none
  unstarted : a.unstarted = 0
  timers : a.timers = []
  sending : a.sending = []

/-- What the engine holds about a run that was started: it is going, with something left to do, or
it has ended. -/
inductive Share.Known (a : Share) : Prop
  | going (r : Run) (l : Live) (going : a.Going [] r l) (busy : l.walked → 0 < l.outstanding)
  | ended (r : Run) (record : a.record = some r) (terminal : r.status.terminal)
      (live : a.live = none) (timers : a.timers = [])
      (completed : r.status = .completed → a.unstarted = 0 ∧ a.sending = [])

/-- Numbers of timers and tickets are given once. -/
structure Desk.Tidy (d : Desk) : Prop where
  timers : d.timers.Numbered
  ordered : d.sending.Pairwise fun a b => a.1 < b.1
  bounded : ∀ entry ∈ d.sending, entry.1 < d.tickets
  asked : ∀ ticket message, .send ticket message ∈ d.requests → ticket < d.tickets

namespace Share

variable {a b : Share} {walking : List Origin} {r : Run} {l : Live}

theorem Known.record (h : a.Known) : a.record.isSome := by
  cases h with
  | going r l hg => simp [hg.record]
  | ended r hr => simp [hr]

/-- What is left of a run that has ended. -/
theorem Known.of_terminal (h : a.Known) (hr : a.record = some r) (ht : r.status.terminal) :
    a.live = none ∧ a.timers = [] ∧ (r.status = .completed → a.unstarted = 0 ∧ a.sending = []) := by
  cases h with
  | going r' l hg =>
    obtain rfl : r' = r := Option.some.inj (hg.record.symm.trans hr)
    rw [hg.status] at ht
    split at ht <;> simp [RunStatus.terminal, RunStatus.allowed] at ht
  | ended r' hr' _ hl htm hc =>
    obtain rfl : r' = r := Option.some.inj (hr'.symm.trans hr)
    exact ⟨hl, htm, hc⟩

/-- A walk keeps the account. -/
theorem Going.walked_of {said : List (LogLevel × String)} {delays : List Continuation}
    (h : a.Going walking r l) (hw : Walked said delays a b) :
    ∃ r' l', b.Going walking r' l' ∧ r'.sayings = r.sayings ++ said ∧ l'.flow = l.flow ∧
      l'.event = l.event := by
  obtain ⟨entries, nodes, occupied, added, notices, rfl, rfl, -, rfl⟩ := hw r l h.record h.live
  refine ⟨_, _, ⟨rfl, rfl, h.status, ?_, h.walked, h.error⟩, by simp [Run.sayings], rfl, rfl⟩
  have := h.outstanding
  simp only [origins, List.length_append] at this ⊢
  omega

theorem Going.not_terminal (h : a.Going walking r l) : r.status.terminal = false := by
  rw [h.status]
  split <;> rfl

theorem Going.not_failed (h : a.Going walking r l) : r.status ≠ .failed := by
  intro hs
  have := h.not_terminal
  simp [hs, RunStatus.terminal, RunStatus.allowed] at this

/-- Where nothing is left to do, no walk and no timer is there. -/
theorem Going.done (h : a.Going [] r l) (hw : l.walked = true) (ho : l.outstanding ≤ 0) :
    a.unstarted = 0 ∧ a.timers = [] ∧ a.sending = [] ∧ r.status = .running := by
  have hout := h.outstanding
  have hwalked := h.walked
  rw [hw, if_pos rfl] at hwalked
  have hun : a.unstarted = 0 := by omega
  refine ⟨hun, ?_, ?_, by rw [h.status, hun, if_pos rfl]⟩
  · rw [← List.length_eq_zero_iff]
    omega
  · have hlen := List.length_eq_countP_add_countP Origin.isFirst (l := a.origins)
    simp only [List.append_nil, Bool.not_eq_true, Bool.decide_eq_false] at hlen hout hwalked
    have horigins : a.origins = [] := by
      rw [← List.length_eq_zero_iff]
      omega
    exact List.map_eq_nil_iff.1 horigins

end Share

namespace Engine

variable {e e' : Engine} {now : Int} {run : String} {origin : Origin} {r : Run} {l : Live}

/-! ## The desk -/

theorem tidy_of_walked {said : List (LogLevel × String)} {delays : List Continuation}
    (h : Walked run said delays e e') (ht : e.desk.Tidy) : e'.desk.Tidy where
  timers := h.later.numbered ht.timers
  ordered := by
    have := ht.ordered
    simp only [desk] at this ⊢
    rwa [h.sending]
  bounded := by
    have := ht.bounded
    simp only [desk] at this ⊢
    rwa [h.sending, h.tickets]
  asked := by
    have ht' : e'.desk.tickets = e.desk.tickets := h.tickets
    rw [h.requests, ht']
    exact ht.asked

theorem tidy_dropTimers (ht : e.desk.Tidy) : (e.dropTimers now run).desk.Tidy := by
  rw [desk_dropTimers]
  exact ⟨ht.timers.filter _, ht.ordered, ht.bounded, ht.asked⟩

theorem tidy_fail (ht : e.desk.Tidy) (error : String) : (e.fail now run error).desk.Tidy := by
  unfold fail
  extract_lets ended
  split
  · simpa using ht
  · simpa using tidy_dropTimers ht

/-- The scheduler does not speak of a failure. -/
theorem schedules_failureNotice (s : String) (flowId : String) (failure : Failure) :
    (failureNotice now run flowId failure origin).schedules s = false := by
  cases origin <;> simp [Notice.schedules, failureNotice]

theorem tidy_conclude (ht : e.desk.Tidy) (flowId : String) (halt : Halt) :
    (conclude now run flowId origin (e, halt)).desk.Tidy := by
  cases halt with
  | ended => simpa [conclude] using ht
  | failed failure =>
    cases origin with
    | trigger => exact tidy_fail (by simpa using ht) _
    | delay node => exact tidy_fail (by simpa using ht) _
  | sending node path rest message =>
    refine ⟨ht.timers, List.pairwise_append.2 ⟨ht.ordered, List.pairwise_singleton _ _, ?_⟩, ?_, ?_⟩
    · intro a ha b hb
      rw [List.mem_singleton.1 hb]
      exact ht.bounded a ha
    · intro entry he
      simp only [conclude, desk, emit, List.mem_append, List.mem_singleton] at he ⊢
      rcases he with he | rfl
      · exact Nat.lt_succ_of_lt (ht.bounded entry he)
      · exact Nat.lt_succ_self _
    · intro ticket m hm
      simp only [conclude, desk, emit, List.filter_append, List.mem_append] at hm ⊢
      rcases hm with hm | hm
      · exact Nat.lt_succ_of_lt (ht.asked ticket m hm)
      · simp only [List.filter_cons, Effect.isSend, if_true, List.filter_nil, List.mem_singleton,
          Effect.send.injEq] at hm
        exact hm.1 ▸ Nat.lt_succ_self _

/-! ## What follows when a walk has come to a halt -/

/-- The end of a walk sets no timer, and only one that waits sends a message. -/
theorem commissions_conclude (e : Engine) (now : Int) (run flowId : String) (origin : Origin)
    (halt : Halt) : (conclude now run flowId origin (e, halt)).commissions =
      e.commissions + if halt matches .sending _ _ _ _ then 1 else 0 := by
  cases halt with
  | ended => exact commissions_of_desk (by simp [conclude])
  | failed failure =>
    cases origin with
    | trigger => exact commissions_fail _
    | delay node => exact commissions_fail _
  | sending node path rest message => rfl

/-- Other runs take no notice of the end of a walk. -/
theorem about_conclude_of_ne {s : String} (hs : s ≠ run) (flowId : String) (halt : Halt) :
    (conclude now run flowId origin (e, halt)).about s = e.about s := by
  cases halt with
  | ended => simp [conclude, hs]
  | failed failure =>
    cases origin <;> simp [conclude, hs, schedules_failureNotice]
  | sending node path rest message =>
    simp [conclude, about, emit, List.filter_append, Ne.symm hs]

/-- A run that has ended takes no notice when a walk of it comes to an end. -/
theorem about_conclude_of_ended (hr : (e.about run).record = some r) (ht : r.status.terminal)
    (hl : (e.about run).live = none) (flowId : String) {halt : Halt}
    (hh : ∀ node path rest message, halt ≠ .sending node path rest message) :
    (conclude now run flowId origin (e, halt)).about run = e.about run := by
  cases halt with
  | ended =>
    simp only [conclude]
    have hsettle := about_withLive_of_none hl (Origin.settle origin)
    rw [complete_of_none (by rw [hsettle, hl]), hsettle]
  | failed failure =>
    have hnote : (e.note (failureNotice now run flowId failure origin)).about run =
        e.about run := about_note_of_not (schedules_failureNotice _ _ _)
    cases origin with
    | trigger =>
      simp only [conclude]
      rw [about_fail_of_terminal (by rw [hnote, hr]) ht, hnote]
    | delay node =>
      simp only [conclude]
      have hsettle := (about_withLive_of_none (e := e.note (failureNotice now run flowId failure
        (.delay node))) (by rw [hnote, hl]) (Origin.settle (.delay node))).trans hnote
      rw [about_fail_of_terminal (by rw [hsettle, hr]) ht, hsettle]
  | sending node path rest message => exact absurd rfl (hh node path rest message)

/-- What it does to a run that is going to look whether it is over. -/
theorem about_complete_of_going (h : (e.about run).Going [] r l) (now : Int) :
    (e.complete now run).about run = e.about run ∨
      (e.complete now run).about run =
        { e.about run with record := some (r.completed now), live := none } := by
  by_cases hbusy : l.walked = false ∨ 0 < l.outstanding
  · rw [complete_of_busy h.live hbusy]
    exact .inl rfl
  · rw [not_or, Bool.not_eq_false, Int.not_lt] at hbusy
    obtain ⟨-, -, -, hs⟩ := h.done hbusy.1 hbusy.2
    exact .inr (about_complete h.record h.live hs hbusy.1 hbusy.2)

/-- A run that is going completes when nothing is left to do, and else goes on. -/
theorem known_complete (h : (e.about run).Going [] r l) (now : Int) :
    ((e.complete now run).about run).Known := by
  by_cases hbusy : l.walked = false ∨ 0 < l.outstanding
  · rw [complete_of_busy h.live hbusy]
    refine .going r l h fun hw => ?_
    rcases hbusy with hf | ho
    · simp [hf] at hw
    · exact ho
  · rw [not_or, Bool.not_eq_false, Int.not_lt] at hbusy
    obtain ⟨hu, htm, hsend, hs⟩ := h.done hbusy.1 hbusy.2
    rw [about_complete h.record h.live hs hbusy.1 hbusy.2]
    exact .ended (r.completed now) rfl (by simp [Run.completed, RunStatus.terminal,
      RunStatus.allowed]) rfl htm fun _ => ⟨hu, hsend⟩

/-- A run that is going ends when it fails. -/
theorem known_fail {walking : List Origin} (h : (e.about run).Going walking r l)
    (error : String) : ((e.fail now run error).about run).Known := by
  rw [about_fail h.record h.not_terminal]
  exact .ended (r.failed now error) rfl rfl rfl rfl fun hc => by cases hc

/-- The end of a walk of a run that is going, before it is looked whether the run is over. -/
theorem going_settle (h : (e.about run).Going [origin] r l) :
    ((e.withLive run (Origin.settle origin)).about run).Going [] r (Origin.settle origin l) := by
  have hout := h.outstanding
  have hwalked := h.walked
  simp only [List.countP_append, List.countP_singleton] at hout hwalked
  rw [about_withLive]
  refine ⟨h.record, by simp [h.live], h.status, ?_, ?_, h.error⟩
  · simp only [Share.origins, List.append_nil] at hout ⊢
    cases origin with
    | trigger => simpa [Origin.settle, Origin.isFirst] using hout
    | delay node =>
      simp only [Origin.settle, Origin.isFirst, Bool.not_false, if_true] at hout ⊢
      omega
  · simp only [Share.origins, List.append_nil] at hwalked ⊢
    cases origin with
    | trigger =>
      simp only [Origin.settle, Origin.isFirst, if_true] at hwalked ⊢
      split at hwalked <;> omega
    | delay node =>
      change _ = if l.walked = true then 0 else 1
      simpa [Origin.isFirst] using hwalked

theorem about_conclude_sending (flowId : String) (node : Node) (path : List String)
    (rest : List Stop) (message : Message) :
    (conclude now run flowId origin (e, .sending node path rest message)).about run =
      { e.about run with sending := (e.about run).sending ++
          [(e.tickets, ⟨run, flowId, origin, node, path, rest, message⟩)] } := by
  simp [conclude, about, emit, List.filter_append]

/-- A walk of a run that is going comes to wait for a reply. -/
theorem going_sending (h : (e.about run).Going [origin] r l) (now : Int) (flowId : String)
    (node : Node) (path : List String) (rest : List Stop) (message : Message) :
    ((conclude now run flowId origin (e, .sending node path rest message)).about run).Going [] r
      l := by
  rw [about_conclude_sending]
  exact ⟨h.record, h.live, h.status, by simpa [Share.origins] using h.outstanding,
    by simpa [Share.origins] using h.walked, h.error⟩

/-- **Wherever a walk of a run that is going comes to a halt, the run is then in one of its
phases.** -/
theorem known_conclude (h : (e.about run).Going [origin] r l) (flowId : String) (halt : Halt) :
    ((conclude now run flowId origin (e, halt)).about run).Known := by
  cases halt with
  | ended => exact known_complete (going_settle h) _
  | failed failure =>
    have hnote : ((e.note (failureNotice now run flowId failure origin)).about run).Going
        [origin] r l := by
      rwa [about_note_of_not (schedules_failureNotice _ _ _)]
    cases origin with
    | trigger => exact known_fail hnote _
    | delay node => exact known_fail (going_settle hnote) _
  | sending node path rest message =>
    refine .going r l (going_sending h now flowId node path rest message) fun hw => ?_
    -- the first walk is not over while it is under way, and any other is outstanding
    have hout := h.outstanding
    have hwalked := h.walked
    simp only [List.countP_append, List.countP_singleton, hw, if_true] at hout hwalked
    cases origin with
    | trigger =>
      simp only [Origin.isFirst, if_true] at hwalked
      omega
    | delay node =>
      simp only [Origin.isFirst, Bool.not_false, if_true] at hout
      omega

end Engine

end Campaign
