import Campaign.Proofs.Engine.Course
/-!
# Walks that are let go on

A run has walks that are still to go on: its first, those that wait for a reply, and those behind
its delays.  `Share.duties` are the stops from which each of them will set out, and a turn is at
work for a run (`Turn.Works`) when it lets one of them go on.

* `Engine.errand` are the stops with which a turn sets out on a walk of a run.
* `Departure` is what is known right before the walk goes on, and `exists_departure` says that every
  turn at work comes to one, unless the run fails at once.
* `exists_arrival` says what such a walk has done when it comes to a halt, and
  `about_conclude_of_going` what is left of it then.
* `idle_take` says what all other turns can do to a run that is going.
-/
namespace Campaign

/-- Whether a turn is the reply to the message of a ticket. -/
def Turn.answers (ticket : Nat) : Turn → Bool
  | .reply k _ => ticket == k
  | _ => false

/-- Whether a turn lets a walk of a run go on: its first walk begins, the reply arrives for which it
waits, or the timer fires. -/
def Turn.Works (e : Engine) (run : String) : Turn → Prop
  | .begin s => s = run ∧ run ∈ e.unstarted
  | .reply ticket _ => ∃ sd, e.sending.lookup ticket = some sd ∧ sd.run = run
  | .fire timer => ∃ t, e.timers.find? timer = some t ∧ t.run = run
  | _ => False

/-- The failure of the node that waits, if the reply to its message is not an acceptance. -/
def Reply.failure? (message : Message) : Reply → Option Failure
  | .accepted _ => none
  | .declined => some (.send ("Message send to " ++ message.recipient ++ " was not accepted"))
  | .failed failure => some failure

namespace Share

variable {f : Flow} {a b : Share} {r : Run} {said : List (LogLevel × String)}
  {delays : List Continuation}

/-- A walk has the delays still to go on behind that it begins. -/
theorem Walked.duties {l : Live} (h : Walked said delays a b) (hr : a.record = some r)
    (hl : a.live = some l) (f : Flow) : b.duties f = a.duties f ++ delays.map f.beyond := by
  obtain ⟨entries, nodes, occupied, added, notices, -, rfl, -, rfl⟩ := h r l hr hl
  simp [Share.duties]

/-- The walks of a run that wait for replies go on waiting while another goes on. -/
theorem Walked.sending {l : Live} (h : Walked said delays a b) (hr : a.record = some r)
    (hl : a.live = some l) : b.sending = a.sending := by
  obtain ⟨entries, nodes, occupied, added, notices, -, -, -, rfl⟩ := h r l hr hl
  rfl

/-- A walk sets a timer for every delay that it begins. -/
theorem Walked.timers {l : Live} (h : Walked said delays a b) (hr : a.record = some r)
    (hl : a.live = some l) :
    ∃ added, b.timers = a.timers ++ added ∧ added.map Timer.what = delays := by
  obtain ⟨entries, nodes, occupied, added, notices, -, hd, -, rfl⟩ := h r l hr hl
  exact ⟨added, rfl, hd⟩

/-- The scheduler tells of every delay that a walk begins. -/
theorem Walked.scheduled {l : Live} (h : Walked said delays a b) (hr : a.record = some r)
    (hl : a.live = some l) :
    ∃ notices, b.scheduled = a.scheduled ++ notices ∧ notices.length = delays.length := by
  obtain ⟨entries, nodes, occupied, added, notices, -, -, hn, rfl⟩ := h r l hr hl
  exact ⟨notices, rfl, hn⟩

/-- A walk that begins no delay changes the record of its run and where the run is. -/
theorem Walked.eq_of_nil {l : Live} (h : Walked said [] a b) (hr : a.record = some r)
    (hl : a.live = some l) : ∃ record live, b = { a with record, live } := by
  obtain ⟨entries, nodes, occupied, added, notices, -, hd, hn, rfl⟩ := h r l hr hl
  rw [List.map_eq_nil_iff.1 hd, List.length_eq_zero_iff.1 hn, List.append_nil, List.append_nil]
  exact ⟨_, _, rfl⟩

end Share

namespace Engine

/-- The stops with which a turn sets out on a walk of a run. -/
def errand (e : Engine) (run : String) (f : Flow) : Turn → List Stop
  | .begin s => if s = run ∧ run ∈ e.unstarted then f.roots else []
  | .reply ticket (.accepted _) =>
    match e.sending.lookup ticket with
    | some sd => if sd.run = run then f.after sd else []
    | none => []
  | .fire timer =>
    match e.timers.find? timer with
    | some t => if t.run = run then f.beyond t.what else []
    | none => []
  | _ => []

/-- The stops that a run comes to in a turn. -/
def met (e : Engine) (run : String) (t : Turn) : List Stop :=
  match e.live.get? run with
  | some l => (l.flow.tour l.context (e.errand run l.flow t)).1
  | none => []

variable {e : Engine} {now : Int} {run : String} {r : Run} {l : Live}

/-- A turn that is not at work for a run sets out on no walk of it. -/
theorem errand_of_not_works {t : Turn} (h : ¬ t.Works e run) (f : Flow) :
    e.errand run f t = [] := by
  cases t with
  | begin s => exact if_neg h
  | fire timer =>
    simp only [errand]
    split
    · rename_i t ht
      exact if_neg fun hr => h ⟨t, ht, hr⟩
    · rfl
  | reply ticket reply =>
    cases reply with
    | accepted id =>
      simp only [errand]
      split
      · rename_i sd hsd
        exact if_neg fun hr => h ⟨sd, hsd, hr⟩
      · rfl
    | _ => rfl
  | _ => rfl

theorem met_of_live (hl : (e.about run).live = some l) (t : Turn) :
    e.met run t = (l.flow.tour l.context (e.errand run l.flow t)).1 := by
  have hget : e.live.get? run = some l := hl
  simp only [met, hget]

/-- Without an errand a run comes to no stop. -/
theorem met_of_errand_nil (hl : (e.about run).live = some l) {t : Turn}
    (h : e.errand run l.flow t = []) : e.met run t = [] := by
  rw [met_of_live hl, h, Flow.tour_nil]

/-- A run that has ended comes to no stop. -/
theorem met_of_none (hl : (e.about run).live = none) (t : Turn) : e.met run t = [] := by
  have hget : e.live.get? run = none := hl
  simp only [met, hget]

theorem context_eq {l' : Live} (h : l'.event = l.event) : l'.context = l.context := by
  rw [Live.context, Live.context, h]

/-! ## Departures -/

/-- A turn lets a walk of a run go on that is going: the engine right before, and what it holds
about the run then. -/
structure Departure (e : Engine) (now : Int) (run : String) (r : Run) (l : Live) (t : Turn) where
  engine : Engine
  origin : Origin
  flowId : String
  record : Run
  live : Live
  /-- What is written into the log on the departure. -/
  opening : LogLevel × String
  tidy : engine.desk.Tidy
  others : ∀ s, s ≠ run → engine.about s = e.about s
  going : (engine.about run).Going [origin] record live
  flow : live.flow = l.flow
  context : live.context = l.context
  sayings : record.sayings = r.sayings ++ [opening]
  aside : Aside opening
  calm : opening.1 = .info
  tickets : engine.tickets = e.tickets
  commissions : engine.commissions ≤ e.commissions
  sending : (engine.about run).sending =
    (e.about run).sending.filter fun entry => !t.answers entry.1
  timers : (engine.about run).timers ⊆ (e.about run).timers
  scheduled : (engine.about run).scheduled = (e.about run).scheduled
  duties : ((e.about run).duties l.flow).Perm
    (e.errand run l.flow t :: (engine.about run).duties l.flow)
  accepted : ∀ ticket reply, t = .reply ticket reply → ∃ id, reply = .accepted id
  take : e.take now t = engine.proceed now run flowId origin (e.errand run l.flow t)

/-- Why a run fails with a turn at work before it comes to any stop, and what is then written into
its log. -/
inductive Forsaking (e : Engine) (run : String) (f : Flow) :
    Turn → String → List (LogLevel × String) → Prop
  /-- There is nowhere to begin. -/
  | untriggered : f.triggers = [] → Forsaking e run f (.begin run) "No TRIGGER node found" []
  /-- A message is not sent, or not accepted. -/
  | rejected {ticket : Nat} {reply : Reply} {sd : Sending} {failure : Failure} :
      e.sending.lookup ticket = some sd → sd.run = run →
      reply.failure? sd.message = some failure →
      Forsaking e run f (.reply ticket reply) failure.reason (sd.node.complaint (.fails failure))

/-- A turn at work makes a run fail before it comes to any stop: what is held about the run right
before, and the walk that is given up. -/
structure Forsaken (e : Engine) (now : Int) (run : String) (r : Run) (l : Live) (t : Turn) where
  share : Share
  duty : List Stop
  record : Run
  said : List (LogLevel × String)
  error : String
  reason : Forsaking e run l.flow t error said
  sayings : record.sayings = r.sayings ++ said
  sending : share.sending = (e.about run).sending.filter fun entry => !t.answers entry.1
  scheduled : share.scheduled = (e.about run).scheduled
  duties : ((e.about run).duties l.flow).Perm (duty :: share.duties l.flow)
  commissions : (e.take now t).commissions ≤ e.commissions
  about : (e.take now t).about run =
    { share with record := some (record.failed now error), live := none, timers := [] }

theorem Forsaking.errand {f : Flow} {t : Turn} {error : String} {said : List (LogLevel × String)}
    (h : Forsaking e run f t error said) : e.errand run f t = [] := by
  cases h with
  | untriggered hnone => simp [Engine.errand, Flow.roots, hnone]
  | @rejected ticket reply sd failure hsd hrun hfailure =>
    cases reply with
    | accepted id => cases hfailure
    | _ => rfl

/-- What a run says that is forsaken is an aside of the engine. -/
theorem Forsaking.aside {f : Flow} {t : Turn} {error : String} {said : List (LogLevel × String)}
    (h : Forsaking e run f t error said) : ∀ x ∈ said, Aside x := by
  cases h with
  | untriggered hnone => exact List.forall_mem_nil _
  | rejected hsd hrun hfailure => exact List.forall_mem_singleton.2 (.erred _ _)

/-- A walk departs when it has been written into the log that it does. -/
theorem exists_departure_of_walked {before mid : Engine} {r₀ : Run} {t : Turn} {origin : Origin}
    {opening : LogLevel × String} (hw : Walked run [opening] [] before mid)
    (hg : (before.about run).Going [origin] r₀ l) (hr : r₀.sayings = r.sayings)
    (haside : Aside opening) (hcalm : opening.1 = .info) (ht : before.desk.Tidy)
    (hothers : ∀ s, s ≠ run → before.about s = e.about s) (htickets : before.tickets = e.tickets)
    (hcommissions : before.commissions = e.commissions)
    (hsending : (before.about run).sending =
      (e.about run).sending.filter fun entry => !t.answers entry.1)
    (htimers : (before.about run).timers ⊆ (e.about run).timers)
    (hscheduled : (before.about run).scheduled = (e.about run).scheduled)
    (hduties : ((e.about run).duties l.flow).Perm
      (e.errand run l.flow t :: (before.about run).duties l.flow))
    (haccepted : ∀ ticket reply, t = .reply ticket reply → ∃ id, reply = .accepted id)
    {flowId : String}
    (htake : e.take now t = mid.proceed now run flowId origin (e.errand run l.flow t)) :
    Nonempty (Departure e now run r l t) := by
  obtain ⟨r₁, l₁, hg₁, hsay, hflow, hevent⟩ := hg.walked_of hw.own
  obtain ⟨record, live, hown⟩ := hw.own.eq_of_nil hg.record hg.live
  refine ⟨mid, origin, flowId, r₁, l₁, opening, tidy_of_walked hw ht, fun s hs => ?_, hg₁, hflow,
    context_eq hevent, hr ▸ hsay, haside, hcalm, hw.tickets.trans htickets,
    hcommissions ▸ hw.commissions, ?_, ?_, ?_, ?_, haccepted, htake⟩
  · rw [hw.others s hs, hothers s hs]
  · rw [hown]
    exact hsending
  · rw [hown]
    exact htimers
  · rw [hown]
    exact hscheduled
  · rw [hown]
    exact hduties

/-! ### Beginnings -/

theorem unstarted_eq_one (h : (e.about run).Going [] r l) (hu : run ∈ e.unstarted) :
    (e.about run).unstarted = 1 := by
  have hcount : (e.about run).unstarted ≠ 0 := Nat.ne_of_gt (List.count_pos_iff.2 hu)
  have hwalked := h.walked
  split at hwalked <;> omega

/-- What is held about a run that is going when its walk begins. -/
theorem about_setOut (h : (e.about run).Going [] r l) (hu : run ∈ e.unstarted) :
    ((e.begun run).setStatus run .running id).about run = { e.about run with
      record := some { r with status := .running }, unstarted := 0 } := by
  have hone := unstarted_eq_one h hu
  have hs : r.status = .pending := by simp [h.status, hone]
  have hrec : ((e.begun run).about run).record = some r := h.record
  rw [about_setStatus hrec (by simp [hs, RunStatus.allowed]), about_begun]
  simp [hone]

/-- The walk that begins, and what is still to go on without it. -/
theorem duties_setOut {a : Share} {n : Nat} (h : a.unstarted = n + 1) (record : Option Run)
    (f : Flow) :
    (a.duties f).Perm (f.roots :: Share.duties f { a with record, unstarted := n }) := by
  simp [Share.duties, h, List.replicate_succ]

/-- A turn other than a reply answers no walk. -/
theorem filter_answers {t : Turn} (h : ∀ ticket, t.answers ticket = false)
    (entries : List (Nat × Sending)) :
    (entries.filter fun entry => !t.answers entry.1) = entries :=
  List.filter_eq_self.2 fun entry _ => by simp [h]

theorem exists_departure_begin (ht : e.desk.Tidy) (h : (e.about run).Going [] r l)
    (hu : run ∈ e.unstarted) (now : Int) : Nonempty (Departure e now run r l (.begin run)) ∨
      Nonempty (Forsaken e now run r l (.begin run)) := by
  have hget : e.live.get? run = some l := h.live
  have hone := unstarted_eq_one h hu
  have hset := about_setOut h hu
  have hg := going_begin h (by simp [hone])
  have htake : e.take now (.begin run) = e.begin now run := rfl
  rw [begin_eq, if_pos hu] at htake
  simp only [hget] at htake
  cases htriggers : l.flow.triggers with
  | nil =>
    rw [htriggers] at htake
    refine .inr ⟨_, l.flow.roots, { r with status := .running }, [], _, .untriggered htriggers,
      (List.append_nil _).symm, ?_, ?_, duties_setOut hone none l.flow, ?_, ?_⟩
    · exact (filter_answers (fun _ => rfl) _).symm
    · rfl
    · rw [htake, commissions_fail]
      exact Nat.le_of_eq (commissions_of_desk (e := e.begun run) (desk_setStatus _ _))
    · rw [htake, about_fail hg.record hg.not_terminal, hset]
  | cons trigger more =>
    rw [htriggers] at htake
    have herr : e.errand run l.flow (.begin run) = l.flow.roots := by simp [errand, hu]
    have hroots : l.flow.roots = l.flow.behind trigger.id [trigger.id] .everywhere := by
      simp [Flow.roots, htriggers]
    have hdesk : ((e.begun run).setStatus run .running id).desk = (e.begun run).desk :=
      desk_setStatus _ _
    refine .inl (exists_departure_of_walked (walked_log now .info ("Triggered by: " ++
      trigger.label) (.object [("payload", l.event.wire)])) hg rfl (.triggered trigger.label) rfl
      (by rw [hdesk]; exact tidy_begun ht) (fun s hs => ?_) (congrArg Desk.tickets hdesk)
      (commissions_of_desk (e := e.begun run) hdesk) ?_ ?_ ?_ ?_ (fun _ _ heq => by cases heq)
      (by rw [herr, hroots]; exact htake))
    · rw [about_setStatus_of_ne hs, about_begun]
      simp [hs]
    · rw [hset, filter_answers fun _ => rfl]
    · rw [hset]
      exact List.Subset.refl _
    · rw [hset]
    · rw [herr, hset]
      exact duties_setOut hone _ l.flow

/-! ### Replies -/

/-- The walk that is taken up again, and what is still to go on without it. -/
theorem duties_answered (ht : e.desk.Tidy) {ticket : Nat} {sd : Sending}
    (hm : (ticket, sd) ∈ e.sending) (f : Flow) : ((e.about sd.run).duties f).Perm
      (f.after sd :: ((e.answered ticket).about sd.run).duties f) := by
  have hperm := (perm_sending_answered ht hm).map fun entry => f.after entry.2
  have hall : ((e.about sd.run).duties f).Perm _ :=
    List.Perm.append_left _ (hperm.append_right _)
  exact hall.trans List.perm_middle

/-- The walks of a run that wait for other replies. -/
theorem sending_answered (e : Engine) (run : String) (ticket : Nat) :
    ((e.answered ticket).about run).sending =
      (e.about run).sending.filter fun entry => entry.1 != ticket := by
  simp only [about, answered, List.filter_filter, Bool.and_comm]

/-- A reply that is not an acceptance makes the node of its walk fail. -/
theorem afterReply_of_failure {sd : Sending} {reply : Reply} {failure : Failure}
    (hl : (e.about sd.run).live = some l) (hf : reply.failure? sd.message = some failure)
    (now : Int) : e.afterReply now sd reply = conclude now sd.run sd.flowId sd.origin
      (e.failNode now sd.run sd.node failure, .failed failure) := by
  have hget : e.live.get? sd.run = some l := hl
  cases reply with
  | accepted id => cases hf
  | declined =>
    cases hf
    simp only [afterReply, hget]
  | failed failure =>
    cases hf
    simp only [afterReply, hget]

theorem exists_departure_reply (ht : e.desk.Tidy) {ticket : Nat} {sd : Sending}
    (hsd : e.sending.lookup ticket = some sd) (h : (e.about sd.run).Going [] r l) (now : Int)
    (reply : Reply) : Nonempty (Departure e now sd.run r l (.reply ticket reply)) ∨
      Nonempty (Forsaken e now sd.run r l (.reply ticket reply)) := by
  have hm := mem_of_lookup_sending hsd
  have hg := going_answered ht hm h
  have htake : e.take now (.reply ticket reply) = e.reply now ticket reply := rfl
  rw [reply_eq] at htake
  simp only [hsd] at htake
  cases hfailure : reply.failure? sd.message with
  | some failure =>
    rw [afterReply_of_failure hg.live hfailure] at htake
    have hw : Walked sd.run _ [] (e.answered ticket) _ := walked_failNode now sd.node failure
    obtain ⟨r₁, l₁, hg₁, hsay, -⟩ := hg.walked_of hw.own
    obtain ⟨record, live, hown⟩ := hw.own.eq_of_nil hg.record hg.live
    refine .inr ⟨_, l.flow.after sd, r₁, _, _, .rejected hsd rfl hfailure, hsay, ?_, ?_, ?_, ?_,
      by rw [htake, about_conclude_failed hg₁]⟩
    · rw [hown]
      exact sending_answered e sd.run ticket
    · rw [hown]
      rfl
    · rw [hown]
      exact duties_answered ht hm l.flow
    · rw [htake, commissions_conclude]
      exact hw.commissions
  | none =>
    obtain ⟨id, rfl⟩ : ∃ id, reply = .accepted id := by
      cases reply <;> simp [Reply.failure?] at hfailure ⊢
    have hget : (e.answered ticket).live.get? sd.run = some l := h.live
    have herr : e.errand sd.run l.flow (.reply ticket (.accepted id)) = l.flow.after sd := by
      simp [errand, hsd]
    simp only [afterReply, hget] at htake
    refine .inl (exists_departure_of_walked ((walked_log now .info ("Sent message via " ++
      e.channel) (.object [("result", .object [("ok", .bool true), ("id", .text id)])])).trans
      (walked_leave sd.node.id)) hg rfl (.sent e.channel) rfl (tidy_answered ht ticket)
      (fun s hs => about_answered_of_ne ht hm hs) rfl rfl ?_ (List.Subset.refl _) rfl ?_
      (fun _ _ heq => ⟨id, by cases heq; rfl⟩) (by rw [herr]; exact htake))
    · rw [sending_answered]
      rfl
    · rw [herr]
      exact duties_answered ht hm l.flow

/-! ### Timers -/

/-- The walk behind a delay that is over, and what is still to go on without it. -/
theorem duties_rung (ht : e.desk.Tidy) {t : Timer Continuation} (hm : t ∈ e.timers.pending)
    (f : Flow) : ((e.about t.run).duties f).Perm
      (f.beyond t.what :: ((e.rung t.number).about t.run).duties f) := by
  have hperm := (perm_timers_rung ht hm).map fun t => f.beyond t.what
  refine (List.Perm.append_left _ (hperm.append_left _)).trans ?_
  rw [List.map_cons]
  exact (List.Perm.append_left _ List.perm_middle).trans List.perm_middle

theorem exists_departure_fire (ht : e.desk.Tidy) {number : Nat} {t : Timer Continuation}
    (hfind : e.timers.find? number = some t) (h : (e.about t.run).Going [] r l) (now : Int) :
    Nonempty (Departure e now t.run r l (.fire number)) := by
  obtain ⟨hm, rfl⟩ := Scheduler.mem_of_find? hfind
  have hget : e.live.get? t.run = some l := h.live
  have herr : e.errand t.run l.flow (.fire t.number) = l.flow.beyond t.what := by
    simp [errand, hfind]
  have htake : e.take now (.fire t.number) = e.fire now t.number := rfl
  rw [fire_eq] at htake
  simp only [hfind, hget] at htake
  refine exists_departure_of_walked ((walked_leave t.what.node.id).trans (walked_log now .info
    ("Delay completed for " ++ t.what.node.label) .null))
    (going_rung ht hm t.what.node.id h) rfl (.resumed t.what.node.label) rfl
    (tidy_rung ht t.number) (fun s hs => about_rung_of_ne ht hm hs) rfl rfl ?_
    (List.filter_sublist.filter _).subset rfl ?_
    (fun _ _ heq => by cases heq) (by rw [herr]; exact htake)
  · rw [filter_answers fun _ => rfl]
    rfl
  · rw [herr]
    exact duties_rung ht hm l.flow

/-- **A turn at work for a run that is going lets a walk go on**, unless the run fails at once. -/
theorem exists_departure (ht : e.desk.Tidy) (h : (e.about run).Going [] r l) {t : Turn}
    (hw : t.Works e run) (now : Int) :
    Nonempty (Departure e now run r l t) ∨ Nonempty (Forsaken e now run r l t) := by
  cases t with
  | begin s =>
    obtain ⟨rfl, hu⟩ := hw
    exact exists_departure_begin ht h hu now
  | reply ticket reply =>
    obtain ⟨sd, hsd, rfl⟩ := hw
    exact exists_departure_reply ht hsd h now reply
  | fire timer =>
    obtain ⟨t, hfind, rfl⟩ := hw
    exact .inl (exists_departure_fire ht hfind h now)
  | _ => exact hw.elim

/-! ## Arrivals -/

/-- A walk has gone on and come to a halt: the engine right before anything is concluded from that,
and what it holds about the run then. -/
structure Arrival (e : Engine) (now : Int) (run : String) (origin : Origin) (r : Run) (l : Live)
    (stops : List Stop) where
  engine : Engine
  record : Run
  live : Live
  going : (engine.about run).Going [origin] record live
  flow : live.flow = l.flow
  context : live.context = l.context
  sayings : record.sayings =
    r.sayings ++ (l.flow.tour l.context stops).1.flatMap (l.flow.remarks l.context)
  tickets : engine.tickets = e.tickets
  commissions : engine.commissions ≤ e.commissions +
    ((l.flow.tour l.context stops).1.flatMap (l.flow.delays l.context)).length
  sending : (engine.about run).sending = (e.about run).sending
  timers : ∃ added, (engine.about run).timers = (e.about run).timers ++ added ∧
    added.map Timer.what = (l.flow.tour l.context stops).1.flatMap (l.flow.delays l.context)
  scheduled : (engine.about run).scheduled.length = (e.about run).scheduled.length +
    ((l.flow.tour l.context stops).1.flatMap (l.flow.delays l.context)).length
  duties : (engine.about run).duties l.flow = (e.about run).duties l.flow ++
    ((l.flow.tour l.context stops).1.flatMap (l.flow.delays l.context)).map l.flow.beyond
  proceed : ∀ flowId, e.proceed now run flowId origin stops =
    conclude now run flowId origin (engine, (l.flow.tour l.context stops).2)

/-- **A walk of a run that is going comes to a halt.** -/
theorem exists_arrival {origin : Origin} (h : (e.about run).Going [origin] r l) (now : Int)
    (stops : List Stop) : Nonempty (Arrival e now run origin r l stops) := by
  have hw := walked_walk now run l.flow l.context e stops
  have hhalt := halt_walk now run l.flow l.context e stops ⟨by simp [h.record], by simp [h.live]⟩
  obtain ⟨r₂, l₂, hg, hsay, hflow, hevent⟩ := h.walked_of hw.own
  obtain ⟨notices, hscheduled, hlength⟩ := hw.own.scheduled h.record h.live
  refine ⟨_, r₂, l₂, hg, hflow, context_eq hevent, hsay, hw.tickets, hw.commissions,
    hw.own.sending h.record h.live, hw.own.timers h.record h.live, ?_,
    hw.own.duties h.record h.live l.flow, fun flowId => ?_⟩
  · rw [hscheduled, List.length_append, hlength]
  · rw [proceed_eq h.live, ← hhalt]

/-- The walk that comes to wait for a reply with a halt, if one does. -/
def waiting (e : Engine) (run flowId : String) (origin : Origin) : Halt → List (Nat × Sending)
  | .sending node path rest message =>
    [(e.tickets, ⟨run, flowId, origin, node, path, rest, message⟩)]
  | .ended | .failed _ => []

/-- What is held about a run that is going when a walk of it has come to a halt: the walk waits for
a reply or has ended, and timers are only given up. -/
theorem about_conclude_of_going {origin : Origin} (h : (e.about run).Going [origin] r l) (now : Int)
    (flowId : String) (halt : Halt) : ∃ record live timers, timers.Sublist (e.about run).timers ∧
      (conclude now run flowId origin (e, halt)).about run = { e.about run with
        record, live, timers
        sending := (e.about run).sending ++ e.waiting run flowId origin halt } := by
  cases halt with
  | ended =>
    simp only [conclude, waiting, List.append_nil]
    rcases about_complete_of_going (going_settle h) now with heq | heq <;>
      rw [heq, about_withLive] <;> exact ⟨_, _, _, .refl _, rfl⟩
  | failed failure =>
    rw [about_conclude_failed h, waiting, List.append_nil]
    exact ⟨_, _, _, List.nil_sublist _, rfl⟩
  | sending node path rest message =>
    rw [about_conclude_sending, waiting]
    exact ⟨_, _, _, .refl _, rfl⟩

/-! ## Turns that let no walk go on -/

/-- What a turn does to a run that is going when it lets no walk of it go on. -/
inductive Idle (e : Engine) (now : Int) (run : String) (r : Run) : Turn → Share → Prop
  | unchanged (t : Turn) : Idle e now run r t (e.about run)
  /-- The run is cancelled. -/
  | cancelled {t : Turn} :
      t = .cancelRun run ∨ (∃ flowId, t = .cancelFlowRuns flowId ∧ run ∈ e.liveRunsOf flowId) →
      Idle e now run r t { e.about run with
        record := some (r.failed now Engine.cancelled), live := none, timers := [] }
  /-- Delays of the run are called off. -/
  | undelayed (node : String) :
      Idle e now run r (.cancelDelay run node) ((e.cancelDelay now run node).1.about run)

/-- When delays are called off, the walks behind them are no longer to go on. -/
theorem duties_undelayed (e : Engine) (run node : String) (f : Flow) :
    (((e.undelayed run node).about run).duties f).Sublist ((e.about run).duties f) := by
  refine Share.duties_sublist ?_ ?_ ?_ f
  · exact Nat.le_refl _
  · exact .refl _
  · exact List.filter_sublist.filter _

/-- What is held about a run that is going when delays of it are called off. -/
theorem about_cancelDelay_of_going (h : (e.about run).Going [] r l) (now : Int) (node : String) :
    ∃ record live, (e.cancelDelay now run node).1.about run =
      { (e.undelayed run node).about run with record, live } := by
  rw [cancelDelay_eq]
  split
  · have hg := going_undelayed h node
    have hw := walked_undelayed e now run node
    obtain ⟨r₁, l₁, hg₁, -⟩ := hg.walked_of hw.own
    obtain ⟨record, live, hown⟩ := hw.own.eq_of_nil hg.record hg.live
    rw [about_withLive] at hown
    rcases about_complete_of_going hg₁ now with heq | heq <;> rw [heq, hown] <;> exact ⟨_, _, rfl⟩
  · exact ⟨_, _, rfl⟩

/-- **A turn that is not at work for a run that is going can only cancel something of it.** -/
theorem idle_take (hc : e.Coherent) (h : (e.about run).Going [] r l) (now : Int) {t : Turn}
    (ha : t.Admitted e) (hw : ¬ t.Works e run) :
    Idle e now run r t ((e.take now t).about run) := by
  by_cases hs : t.Concerns e run
  case neg =>
    rw [about_take_of_ne hc.tidy now ha hs]
    exact .unchanged t
  cases t with
  | start s flow event =>
    obtain rfl : s = run := hs
    have hnone : (e.about s).record = none := ha
    exact absurd h.record (by simp [hnone])
  | begin s =>
    obtain rfl : s = run := hs
    have hu : s ∉ e.unstarted := fun hu => hw ⟨rfl, hu⟩
    rw [take_begin_of_not_mem hu]
    exact .unchanged _
  | reply ticket reply => exact absurd hs hw
  | fire timer => exact absurd hs hw
  | cancelRun s =>
    obtain rfl : s = run := hs
    simp only [take, about_cancelRun_of_going h]
    exact .cancelled (.inl rfl)
  | cancelDelay s node =>
    obtain rfl : s = run := hs
    exact .undelayed node
  | cancelFlowRuns flowId =>
    simp only [take, cancelFlowRuns, about_cancelRuns_of_going h now hs]
    exact .cancelled (.inr ⟨flowId, rfl, hs⟩)
  | served effects => exact hs.elim
  | told notice => exact hs.elim

/-! ## Walks that wait -/

/-- **A walk of a run that is going waits until its message is answered.** -/
theorem mem_sending_take (hc : e.Coherent) (h : (e.about run).Going [] r l) (now : Int) {t : Turn}
    (ha : t.Admitted e) {entry : Nat × Sending} (hm : entry ∈ (e.about run).sending)
    (hn : t.answers entry.1 = false) : entry ∈ ((e.take now t).about run).sending := by
  have hkept : entry ∈ (e.about run).sending.filter fun entry => !t.answers entry.1 :=
    List.mem_filter.2 ⟨hm, by simp [hn]⟩
  by_cases hw : t.Works e run
  · rcases exists_departure hc.tidy h hw now with ⟨⟨d⟩⟩ | ⟨⟨d⟩⟩
    · obtain ⟨a⟩ := exists_arrival d.going now (e.errand run l.flow t)
      rw [d.take, a.proceed]
      obtain ⟨record, live, timers, -, heq⟩ := about_conclude_of_going a.going now d.flowId
        (d.live.flow.tour d.live.context (e.errand run l.flow t)).2
      rw [heq]
      refine List.mem_append_left _ ?_
      rwa [a.sending, d.sending]
    · rw [d.about]
      exact d.sending ▸ hkept
  have hidle := idle_take hc h now ha hw
  generalize (e.take now t).about run = after at hidle ⊢
  cases hidle with
  | unchanged => exact hm
  | cancelled => exact hm
  | undelayed node =>
    obtain ⟨record, live, heq⟩ := about_cancelDelay_of_going h now node
    rw [heq]
    exact hm

end Engine

end Campaign
