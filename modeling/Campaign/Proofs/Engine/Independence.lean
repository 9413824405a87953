import Campaign.Proofs.Engine.Frame
import Campaign.Proofs.Engine.Likeness
/-!
# Runs are independent

All runs share the timers, the tickets and the records of the engine, and their turns come in any
order.  Still a run goes its way as if it were alone.

What happens to one run is told by a list of steps (`Engine.Step`), which name neither ids nor
numbers: a timer or a walk that waits for a reply is told by its place among those of the run.

* `Engine.steps` are the steps of a run in a history: the turns of other runs are left out, and its
  own stay in their order;
* `Engine.solo` are the turns in which steps are taken by a run of another engine, at other times;
* `Reachable.independent`: a turn of one run leaves another as it is, and the record of a run after
  a history is, but for its id and the times, the record of a run that takes its steps alone.

The two runs stay alike (`alike_take_step`).
-/
namespace Campaign

/-- Whether a turn keeps to a sender whose reply is a function of the message. -/
def Turn.Answers (answer : Message → Reply) (e : Engine) : Turn → Prop
  | .reply ticket r => ∀ sd, e.sending.lookup ticket = some sd → r = answer sd.message
  | _ => True

namespace Engine

open Share (Alike)

/-- Something that happens to a run. -/
inductive Step where
  | start (flow : Flow) (event : Event)
  | begin
  /-- The message of the walk at this place is answered. -/
  | reply (place : Nat) (reply : Reply)
  /-- The timer at this place fires. -/
  | fire (place : Nat)
  | cancelRun
  | cancelDelay (node : String)

/-- Whether a run about which this is held can take a step. -/
def Step.Possible (a : Share) : Step → Prop
  | .start _ _ => a.record = none
  | .reply place _ => place < a.sending.length
  | .fire place => place < a.timers.length
  | .begin | .cancelRun | .cancelDelay _ => True

/-- The turn in which a run takes a step. -/
def Step.turn (e : Engine) (run : String) : Step → Turn
  | .start flow event => .start run flow event
  | .begin => .begin run
  | .reply place r => .reply (((e.about run).sending.map Prod.fst).getD place e.tickets) r
  | .fire place => .fire (((e.about run).timers.map Timer.number).getD place e.timers.next)
  | .cancelRun => .cancelRun run
  | .cancelDelay node => .cancelDelay run node

/-- The step that a run takes in a turn, if the turn is about the run. -/
def step? (e : Engine) (run : String) : Turn → Option Step
  | .start r flow event => if r = run then some (.start flow event) else none
  | .begin r => if r = run then some .begin else none
  | .reply ticket reply =>
    ((e.about run).sending.findIdx? fun entry => entry.1 == ticket).map fun place =>
      .reply place reply
  | .fire number => ((e.about run).timers.findIdx? fun t => t.number == number).map Step.fire
  | .cancelRun r => if r = run then some .cancelRun else none
  | .cancelDelay r node => if r = run then some (.cancelDelay node) else none
  | .cancelFlowRuns flowId => if run ∈ e.liveRunsOf flowId then some .cancelRun else none
  | .served _ | .told _ => none

/-- The steps that a run takes in a history. -/
def steps (e : Engine) (run : String) : List (Int × Turn) → List Step
  | [] => []
  | (now, t) :: history => (e.step? run t).toList ++ (e.take now t).steps run history

/-- The turns in which a run takes some steps, with nothing in between. -/
def solo (e : Engine) (run : String) : List (Int × Step) → List (Int × Turn)
  | [] => []
  | (now, step) :: steps =>
    (now, step.turn e run) :: (e.take now (step.turn e run)).solo run steps

variable {e e' : Engine} {s s' : String} {now : Int} {t : Turn} {step : Step}

/-! ## Places -/

theorem find?_timers (ht : e.desk.Tidy) {u : Timer Continuation} (hm : u ∈ e.timers.pending) :
    e.timers.find? u.number = some u := by
  cases hfound : e.timers.find? u.number with
  | none => exact absurd (List.find?_eq_none.1 hfound _ hm) (by simp)
  | some other =>
    obtain ⟨hother, hnumber⟩ := Scheduler.mem_of_find? hfound
    rw [eq_of_number_eq Timer.number ht.timers.ordered hother hm hnumber]

/-- A walk that waits for a reply is taken up from its place. -/
theorem about_answered (ht : e.desk.Tidy) {place : Nat} {entry : Nat × Sending}
    (hp : (e.about s).sending[place]? = some entry) : (e.answered entry.1).about s =
      { e.about s with sending := (e.about s).sending.eraseIdx place } := by
  have h : ((e.sending.filter fun other => other.1 != entry.1).filter fun other =>
      other.2.run == s) = (e.about s).sending.eraseIdx place :=
    (List.filter_comm _ _ _).trans (filter_number_eq_eraseIdx Prod.fst (ht.ordered.filter _) hp)
  rw [← h]
  rfl

/-- A timer that fires is taken from its place. -/
theorem about_rung (ht : e.desk.Tidy) {place : Nat} {u : Timer Continuation}
    (hp : (e.about s).timers[place]? = some u) : (e.rung u.number).about s =
      { e.about s with timers := (e.about s).timers.eraseIdx place } := by
  have h : ((e.timers.pending.filter fun other => other.number != u.number).filter fun other =>
      other.run == s) = (e.about s).timers.eraseIdx place :=
    (List.filter_comm _ _ _).trans
      (filter_number_eq_eraseIdx Timer.number (ht.timers.ordered.filter _) hp)
  rw [← h]
  rfl

/-- Of two runs that are alike, walks that wait at the same place wait for the same. -/
theorem sending_of_alike (h : Alike (e.about s) (e'.about s')) {place : Nat}
    {entry : Nat × Sending} (hp : (e.about s).sending[place]? = some entry) :
    ∃ entry', (e'.about s').sending[place]? = some entry' ∧ entry.2.bare = entry'.2.bare := by
  have hplace := congrArg (fun l : List Sending => l[place]?) h.sending
  simp only [List.getElem?_map, hp, Option.map_some] at hplace
  obtain ⟨entry', hp', heq⟩ := Option.map_eq_some_iff.1 hplace.symm
  exact ⟨entry', hp', heq.symm⟩

theorem timer_of_alike (h : Alike (e.about s) (e'.about s')) {place : Nat}
    {u : Timer Continuation} (hp : (e.about s).timers[place]? = some u) :
    ∃ u', (e'.about s').timers[place]? = some u' ∧ u.bare = u'.bare := by
  have hplace := congrArg (fun l : List (String × Continuation) => l[place]?) h.timers
  simp only [List.getElem?_map, hp, Option.map_some] at hplace
  obtain ⟨u', hp', heq⟩ := Option.map_eq_some_iff.1 hplace.symm
  exact ⟨u', hp', heq.symm⟩

/-! ## Steps and turns -/

/-- A step of a run in a turn, told by what the turn takes up. -/
theorem step?_reply {ticket : Nat} {reply : Reply}
    (h : e.step? s (.reply ticket reply) = some step) : ∃ place sd, step = .reply place reply ∧
      (e.about s).sending[place]? = some (ticket, sd) := by
  obtain ⟨place, hfound, rfl⟩ := Option.map_eq_some_iff.1 h
  obtain ⟨hlt, hticket, -⟩ := List.findIdx?_eq_some_iff_getElem.1 hfound
  refine ⟨place, (e.about s).sending[place].2, rfl, ?_⟩
  rw [List.getElem?_eq_getElem hlt, ← eq_of_beq hticket]

theorem step?_fire {number : Nat} (h : e.step? s (.fire number) = some step) :
    ∃ place u, step = .fire place ∧ (e.about s).timers[place]? = some u ∧ u.number = number := by
  obtain ⟨place, hfound, rfl⟩ := Option.map_eq_some_iff.1 h
  obtain ⟨hlt, hnumber, -⟩ := List.findIdx?_eq_some_iff_getElem.1 hfound
  exact ⟨place, (e.about s).timers[place], rfl, List.getElem?_eq_getElem hlt, eq_of_beq hnumber⟩

theorem turn_reply {place : Nat} {entry : Nat × Sending}
    (hp : (e.about s).sending[place]? = some entry) (reply : Reply) :
    (Step.reply place reply).turn e s = .reply entry.1 reply := by
  simp [Step.turn, List.getD_eq_getElem?_getD, hp]

theorem turn_fire {place : Nat} {u : Timer Continuation}
    (hp : (e.about s).timers[place]? = some u) : (Step.fire place).turn e s = .fire u.number := by
  simp [Step.turn, List.getD_eq_getElem?_getD, hp]

theorem mem_sending_of_place {place : Nat} {entry : Nat × Sending}
    (hp : (e.about s).sending[place]? = some entry) : entry ∈ e.sending ∧ entry.2.run = s := by
  simpa [about] using List.mem_of_getElem? hp

theorem mem_timers_of_place {place : Nat} {u : Timer Continuation}
    (hp : (e.about s).timers[place]? = some u) : u ∈ e.timers.pending ∧ u.run = s := by
  simpa [about] using List.mem_of_getElem? hp

/-- A run takes a step in the turns that are about it, and in no other. -/
theorem step?_isSome (ht : e.desk.Tidy) : (e.step? s t).isSome ↔ t.Concerns e s := by
  cases t with
  | reply ticket reply =>
    simp only [step?, Option.isSome_map, List.findIdx?_isSome, List.any_eq_true, Turn.Concerns,
      about, List.mem_filter]
    constructor
    · rintro ⟨⟨k, sd⟩, ⟨hm, hrun⟩, hticket⟩
      obtain rfl : k = ticket := eq_of_beq hticket
      exact ⟨sd, lookup_sending ht hm, eq_of_beq hrun⟩
    · rintro ⟨sd, hsd, rfl⟩
      exact ⟨(ticket, sd), ⟨mem_of_lookup_sending hsd, beq_self_eq_true _⟩, beq_self_eq_true _⟩
  | fire number =>
    simp only [step?, Option.isSome_map, List.findIdx?_isSome, List.any_eq_true, Turn.Concerns,
      about, List.mem_filter]
    constructor
    · rintro ⟨u, ⟨hm, hrun⟩, hnumber⟩
      obtain rfl : u.number = number := eq_of_beq hnumber
      exact ⟨u, find?_timers ht hm, eq_of_beq hrun⟩
    · rintro ⟨u, hu, rfl⟩
      obtain ⟨hm, hnumber⟩ := Scheduler.mem_of_find? hu
      exact ⟨u, ⟨hm, beq_self_eq_true _⟩, beq_iff_eq.2 hnumber⟩
  | _ => simp [step?, Turn.Concerns]

/-- But for one that cancels the runs of a flow, a turn is about one run at most. -/
theorem not_concerns_of_ne {r : String} (hr : t.Concerns e r)
    (hone : ∀ flowId, t ≠ .cancelFlowRuns flowId) (hne : s ≠ r) : ¬ t.Concerns e s := by
  intro hs
  cases t with
  | reply ticket reply =>
    obtain ⟨sd, hsd, rfl⟩ := hr
    obtain ⟨other, hother, rfl⟩ := hs
    rw [Option.some.inj (hother.symm.trans hsd)] at hne
    exact hne rfl
  | fire number =>
    obtain ⟨u, hu, rfl⟩ := hr
    obtain ⟨other, hother, rfl⟩ := hs
    rw [Option.some.inj (hother.symm.trans hu)] at hne
    exact hne rfl
  | cancelFlowRuns flowId => exact hone flowId rfl
  | served effects => exact hs
  | told notice => exact hs
  | _ => exact hne (hs.symm.trans hr)

/-- What a turn does to a run is the step that the run takes in it. -/
theorem about_take_step (hc : e.Coherent) (h : e.step? s t = some step) (now : Int) :
    (e.take now t).about s = (e.take now (step.turn e s)).about s := by
  cases t with
  | reply ticket reply =>
    obtain ⟨place, sd, rfl, hp⟩ := step?_reply h
    rw [turn_reply hp]
  | fire number =>
    obtain ⟨place, u, rfl, hp, rfl⟩ := step?_fire h
    rw [turn_fire hp]
  | cancelFlowRuns flowId =>
    obtain ⟨hm, hstep⟩ := Option.ite_none_right_eq_some.1 h
    obtain rfl : Step.cancelRun = step := Option.some.inj hstep
    obtain ⟨l, hl, -⟩ := mem_liveRunsOf.1 hm
    obtain ⟨r, hg, -⟩ := hc.going hl
    exact (about_cancelRuns_of_going hg now hm).trans (about_cancelRun_of_going hg now).symm
  | start run flow event =>
    obtain ⟨rfl, hstep⟩ := Option.ite_none_right_eq_some.1 h
    rw [← Option.some.inj hstep, Step.turn]
  | begin run =>
    obtain ⟨rfl, hstep⟩ := Option.ite_none_right_eq_some.1 h
    rw [← Option.some.inj hstep, Step.turn]
  | cancelRun run =>
    obtain ⟨rfl, hstep⟩ := Option.ite_none_right_eq_some.1 h
    rw [← Option.some.inj hstep, Step.turn]
  | cancelDelay run node =>
    obtain ⟨rfl, hstep⟩ := Option.ite_none_right_eq_some.1 h
    rw [← Option.some.inj hstep, Step.turn]
  | served effects => cases h
  | told notice => cases h

theorem possible_of_step? (ha : t.Admitted e) (h : e.step? s t = some step) :
    step.Possible (e.about s) := by
  cases t with
  | start run flow event =>
    obtain ⟨rfl, hstep⟩ := Option.ite_none_right_eq_some.1 h
    exact Option.some.inj hstep ▸ ha
  | reply ticket reply =>
    obtain ⟨place, sd, rfl, hp⟩ := step?_reply h
    exact (List.getElem?_eq_some_iff.1 hp).1
  | fire number =>
    obtain ⟨place, u, rfl, hp, -⟩ := step?_fire h
    exact (List.getElem?_eq_some_iff.1 hp).1
  | served effects => cases h
  | told notice => cases h
  | _ =>
    obtain ⟨-, hstep⟩ := Option.ite_none_right_eq_some.1 h
    exact Option.some.inj hstep ▸ trivial

namespace Step.Possible

variable {a b : Share}

theorem of_alike (hp : step.Possible a) (h : Alike a b) : step.Possible b := by
  cases step with
  | start flow event => exact Option.map_eq_none_iff.1 (h.record ▸ Option.map_eq_none_iff.2 hp)
  | reply place reply => exact Nat.lt_of_lt_of_eq hp (by simpa using congrArg List.length h.sending)
  | fire place => exact Nat.lt_of_lt_of_eq hp (by simpa using congrArg List.length h.timers)
  | _ => trivial

theorem admitted (hp : step.Possible (e.about s)) : (step.turn e s).Admitted e := by
  cases step with
  | start flow event => exact hp
  | _ => trivial

theorem concerns (hp : step.Possible (e.about s)) (ht : e.desk.Tidy) :
    (step.turn e s).Concerns e s := by
  cases step with
  | reply place reply =>
    obtain ⟨entry, hentry⟩ : ∃ entry, (e.about s).sending[place]? = some entry :=
      ⟨_, List.getElem?_eq_getElem hp⟩
    obtain ⟨hm, hrun⟩ := mem_sending_of_place hentry
    rw [turn_reply hentry]
    exact ⟨entry.2, lookup_sending ht hm, hrun⟩
  | fire place =>
    obtain ⟨u, hu⟩ : ∃ u, (e.about s).timers[place]? = some u :=
      ⟨_, List.getElem?_eq_getElem hp⟩
    obtain ⟨hm, hrun⟩ := mem_timers_of_place hu
    rw [turn_fire hu]
    exact ⟨u, find?_timers ht hm, hrun⟩
  | _ => rfl

end Step.Possible

/-- **The same step leaves runs alike that were so.** -/
theorem alike_take_step (ht : e.desk.Tidy) (ht' : e'.desk.Tidy) (hchannel : e.channel = e'.channel)
    (h : Alike (e.about s) (e'.about s')) (hp : step.Possible (e.about s)) (now now' : Int) :
    Alike ((e.take now (step.turn e s)).about s) ((e'.take now' (step.turn e' s')).about s') := by
  cases step with
  | start flow event => exact alike_start h flow event
  | begin => exact alike_begin h
  | cancelRun => exact alike_cancelRun h
  | cancelDelay node => exact alike_cancelDelay h node
  | reply place reply =>
    obtain ⟨⟨ticket, sd⟩, hentry⟩ : ∃ entry, (e.about s).sending[place]? = some entry :=
      ⟨_, List.getElem?_eq_getElem hp⟩
    obtain ⟨⟨ticket', sd'⟩, hentry', hbare⟩ := sending_of_alike h hentry
    obtain ⟨hm, rfl⟩ := mem_sending_of_place hentry
    obtain ⟨hm', rfl⟩ := mem_sending_of_place hentry'
    have hleft : Alike ((e.answered ticket).about sd.run)
        ((e'.answered ticket').about sd'.run) := by
      rw [about_answered ht hentry, about_answered ht' hentry']
      refine { h with sending := ?_ }
      rw [← List.eraseIdx_map, h.sending, List.eraseIdx_map]
    rw [turn_reply hentry, turn_reply hentry']
    simp only [take, reply_eq, lookup_sending ht hm, lookup_sending ht' hm']
    exact alike_afterReply hleft hchannel hbare reply
  | fire place =>
    obtain ⟨u, hu⟩ : ∃ u, (e.about s).timers[place]? = some u :=
      ⟨_, List.getElem?_eq_getElem hp⟩
    obtain ⟨u', hu', hbare⟩ := timer_of_alike h hu
    obtain ⟨hm, rfl⟩ := mem_timers_of_place hu
    obtain ⟨hm', rfl⟩ := mem_timers_of_place hu'
    have hwhat : u.what = u'.what := congrArg Prod.snd hbare
    have hlive : e.live.get? u.run = e'.live.get? u'.run := h.live
    have hleft : Alike ((e.rung u.number).about u.run) ((e'.rung u'.number).about u'.run) := by
      rw [about_rung ht hu, about_rung ht' hu']
      refine { h with timers := ?_ }
      rw [← List.eraseIdx_map, h.timers, List.eraseIdx_map]
    rw [turn_fire hu, turn_fire hu']
    simp only [take, fire_eq, find?_timers ht hm, find?_timers ht' hm', hlive, hwhat]
    split
    · exact hleft
    · exact alike_proceed (alike_log (alike_leave hleft _) _ _ _) _ _ _

/-! ## Histories -/

/-- A step is taken alone under the reply that was given to it among other runs. -/
theorem answers_turn {answer : Message → Reply} (ht : e.desk.Tidy) (ht' : e'.desk.Tidy)
    (h : Alike (e.about s) (e'.about s')) (hanswers : t.Answers answer e)
    (hstep : e.step? s t = some step) : (step.turn e' s').Answers answer e' := by
  cases step with
  | reply place reply =>
    cases t with
    | reply ticket other =>
      obtain ⟨place', sd, hsame, hentry⟩ := step?_reply hstep
      obtain ⟨rfl, rfl⟩ := Step.reply.inj hsame
      obtain ⟨⟨ticket', sd'⟩, hentry', hbare⟩ := sending_of_alike h hentry
      have hfound := lookup_sending ht (mem_sending_of_place hentry).1
      have hfound' := lookup_sending ht' (mem_sending_of_place hentry').1
      have hmessage : sd.message = sd'.message := (congrArg Sending.message hbare :)
      rw [turn_reply hentry']
      intro found hsd
      obtain rfl : sd' = found := Option.some.inj (hfound'.symm.trans hsd)
      exact hmessage ▸ hanswers sd hfound
    | _ => simp [step?] at hstep
  | _ => trivial

/-- **A run that takes the steps of another alone stays like it.** -/
theorem alike_solo {answer : Message → Reply} {history : List (Int × Turn)}
    {steps : List (Int × Step)} (hc : e.Coherent) (hc' : e'.Coherent)
    (hchannel : e.channel = e'.channel) (h : Alike (e.about s) (e'.about s'))
    (ha : e.Admits history) (hanswers : e.Along (Turn.Answers answer) history)
    (hsteps : steps.map Prod.snd = e.steps s history) :
    e'.Admits (e'.solo s' steps) ∧
      e'.Along (fun e t => t.Concerns e s') (e'.solo s' steps) ∧
      e'.Along (Turn.Answers answer) (e'.solo s' steps) ∧
      Alike ((e.follow history).about s) ((e'.follow (e'.solo s' steps)).about s') := by
  induction history generalizing e e' steps with
  | nil =>
    obtain rfl : steps = [] := List.map_eq_nil_iff.1 hsteps
    exact ⟨trivial, trivial, trivial, h⟩
  | cons turn history ih =>
    obtain ⟨now, t⟩ := turn
    have hnext := coherent_take hc now ha.1
    have hchannel' : (e.take now t).channel = e'.channel := (channel_take t).trans hchannel
    cases hstep : e.step? s t with
    | none =>
      have hothers : ¬ t.Concerns e s := fun hconcerns => by
        simpa [hstep] using (step?_isSome hc.tidy).2 hconcerns
      simp only [Engine.steps, hstep, Option.toList_none, List.nil_append] at hsteps
      exact ih hnext hc' hchannel' (about_take_of_ne hc.tidy now ha.1 hothers ▸ h) ha.2 hanswers.2
        hsteps
    | some step =>
      simp only [Engine.steps, hstep, Option.toList_some, List.singleton_append] at hsteps
      obtain ⟨⟨now', step'⟩, steps, rfl, rfl, hrest⟩ := List.map_eq_cons_iff.1 hsteps
      have hp := possible_of_step? ha.1 hstep
      have hp' := hp.of_alike h
      have hnext' := coherent_take hc' now' hp'.admitted
      have halike := alike_take_step hc.tidy hc'.tidy hchannel h hp now now'
      rw [← about_take_step hc hstep now] at halike
      obtain ⟨hadmits, hconcerns, hkeeps, hend⟩ := ih hnext hnext'
        (hchannel'.trans (channel_take _).symm) halike ha.2 hanswers.2 hrest
      exact ⟨⟨hp'.admitted, hadmits⟩, ⟨hp'.concerns hc'.tidy, hconcerns⟩,
        ⟨answers_turn hc.tidy hc'.tidy h hanswers.1 hstep, hkeeps⟩, hend⟩

/-- Whatever two engines do not know is alike. -/
theorem alike_unknown (h : (e.about s).Unknown) (h' : (e'.about s').Unknown) :
    Alike (e.about s) (e'.about s') where
  record := by rw [h.record, h'.record]
  live := by rw [h.live, h'.live]
  unstarted := by rw [h.unstarted, h'.unstarted]
  timers := by rw [h.timers, h'.timers]
  sending := by rw [h.sending, h'.sending]

/-- **Runs are independent.**  A turn that is about one run leaves the record of every other, what
is known of it while it is live, and its timers as they are.  So where replies depend on messages
only, the record of a run after a history is, but for its id and the times, that of a run which
takes the steps of this run, in their order, alone in an engine of its own. -/
theorem Reachable.independent (h : e.Reachable) :
    (∀ now t r s, t.Admitted e → t.Concerns e r → (∀ flowId, t ≠ .cancelFlowRuns flowId) → s ≠ r →
      (e.take now t).runs.get? s = e.runs.get? s ∧ (e.take now t).live.get? s = e.live.get? s ∧
      (e.take now t).timers.pending.filter (fun u => u.run == s) =
        e.timers.pending.filter fun u => u.run == s) ∧
    ∀ (answer : Message → Reply) history s, e.Admits history →
      e.Along (Turn.Answers answer) history → e.runs.get? s = none →
      ∀ s' steps, steps.map Prod.snd = e.steps s history →
        let idle : Engine := { channel := e.channel }
        let solo := idle.solo s' steps
        idle.Admits solo ∧ idle.Along (fun e t => t.Concerns e s') solo ∧
          idle.Along (Turn.Answers answer) solo ∧
          ((idle.follow solo).runs.get? s').map Run.timeless =
            ((e.follow history).runs.get? s).map Run.timeless := by
  have hc := h.coherent
  refine ⟨fun now t r s ha hr hone hne => ?_,
    fun answer history s ha hanswers hs s' steps hsteps => ?_⟩
  · have hkept := about_take_of_ne hc.tidy now ha (not_concerns_of_ne hr hone hne)
    exact ⟨congrArg Share.record hkept, congrArg Share.live hkept, congrArg Share.timers hkept⟩
  · have hc' := coherent_idle e.channel
    have hfresh : (({ channel := e.channel } : Engine).about s').Unknown := hc'.unknown rfl
    have hunknown := alike_unknown (hc.unknown hs) hfresh
    obtain ⟨hadmits, hconcerns, hkeeps, hend⟩ := alike_solo hc hc' rfl hunknown ha hanswers hsteps
    exact ⟨hadmits, hconcerns, hkeeps, hend.record.symm⟩

/-- Two greetings at the same time.  The delay of one is called off, and it completes as it does
alone, with its steps taken all at once; the other is cancelled while a message of it is out, and
the reply to that comes after all. -/
theorem greetings_independent :
    let idle : Engine := { channel := "mail" }
    let history : List (Int × Turn) := [(0, .start "r" greeting order),
      (1, .start "q" greeting order), (2, .begin "q"), (3, .begin "r"),
      (4, .reply 0 (.accepted "m")), (5, .reply 1 (.accepted "m")), (6, .fire 0),
      (7, .cancelDelay "r" "d"), (8, .cancelRun "q")]
    let steps := (idle.steps "r" history).map fun step => ((0 : Int), step)
    let e := idle.follow history
    (e.runs.get? "r").map Run.status = some .completed ∧
      ((idle.follow (idle.solo "p" steps)).runs.get? "p").map Run.timeless =
        (e.runs.get? "r").map Run.timeless ∧
      (e.sending.lookup 2).map Sending.run = some "q" ∧
      (e.take 9 (.reply 2 (.accepted "m"))).runs.get? "r" = e.runs.get? "r" := by
  intro idle history steps e
  have hadmits : idle.Admits history :=
    ⟨rfl, rfl, trivial, trivial, trivial, trivial, trivial, trivial, trivial, trivial⟩
  have hanswers : idle.Along (Turn.Answers fun _ => .accepted "m") history :=
    ⟨trivial, trivial, trivial, trivial, fun _ _ => rfl, fun _ _ => rfl, trivial, trivial, trivial,
      trivial⟩
  have hsteps : steps.map Prod.snd = idle.steps "r" history :=
    (List.map_map ..).trans (List.map_id _)
  have hout : (e.sending.lookup 2).map Sending.run = some "q" := by decide +kernel
  obtain ⟨-, hsolo⟩ := Reachable.independent (.idle "mail")
  obtain ⟨-, -, -, hlike⟩ := hsolo _ history "r" hadmits hanswers rfl "p" steps hsteps
  obtain ⟨hothers, -⟩ := Reachable.independent ((Reachable.idle "mail").follow hadmits)
  obtain ⟨hkept, -, -⟩ := hothers 9 (.reply 2 (.accepted "m")) "q" "r" trivial
    (Option.map_eq_some_iff.1 hout) (fun _ h => by cases h) (by decide)
  exact ⟨by decide +kernel, hlike, hout, hkept⟩

end Engine

end Campaign
