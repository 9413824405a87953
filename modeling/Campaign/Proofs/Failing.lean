import Campaign.Proofs.Engine.ExactlyOnce
import Campaign.Proofs.Host.Budget
import Campaign.Proofs.Host.Released
/-!
# Nodes that fail

When a node raises a failure its run fails in the same turn (`Engine.Raises`): its message is not
sent or not accepted, or something is looked up that is not there.  Whether that is in the first
walk or behind a delay, and whatever else the run waits for, the failure is the last that happens to
it.

* `met_of_raises` says that the run comes to nothing behind the node;
* `failedAt_of_raises` is what is held about the run afterwards;
* `Reachable.fails_cleanly` says what becomes of the run and of those who wait for it.
-/
namespace Campaign

/-- The entries with which the log of a run ends that fails at a node. -/
def Node.lastWords (n : Node) (failure : Failure) : List (LogLevel × String) :=
  [(.error, "Error in node " ++ n.label ++ ": " ++ failure.text),
    (.error, "Run failed: " ++ failure.reason)]

namespace Engine

/-- Whether processing a node of a run raises a failure in a turn, and the stops to which the run
has come in that turn by then. -/
inductive Raises (e : Engine) (run : String) (l : Live) :
    Turn → List Stop → Node → Failure → Prop
  /-- The message of the node is not sent, or not accepted. -/
  | rejected {ticket : Nat} {reply : Reply} {sd : Sending} {failure : Failure} :
      e.sending.lookup ticket = some sd → sd.run = run →
      reply.failure? sd.message = some failure →
      Raises e run l (.reply ticket reply) [] sd.node failure
  /-- A look-up of the node is faulty. -/
  | faulty {t : Turn} {before after : List Stop} {s : Stop} {n : Node} {failure : Failure} :
      e.met run t = before ++ s :: after → l.flow.processed? s = some n →
      n.outcome l.context = .fails failure → Raises e run l t (before ++ [s]) n failure

variable {e : Engine} {now : Int} {run : String} {r : Run} {l : Live} {t : Turn} {met : List Stop}
  {n : Node} {failure : Failure}

/-- A turn in which a node fails is at work for its run. -/
theorem Raises.works (h : Raises e run l t met n failure) (hl : (e.about run).live = some l) :
    t.Works e run := by
  cases h with
  | rejected hsd hrun hfailure => exact ⟨_, hsd, hrun⟩
  | faulty hmet hs ho =>
    by_contra hw
    rw [met_of_errand_nil hl (errand_of_not_works hw l.flow)] at hmet
    simp at hmet

/-- **Nothing behind a node that fails is come to.** -/
theorem met_of_raises (h : Raises e run l t met n failure) (hl : (e.about run).live = some l) :
    e.met run t = met := by
  cases h with
  | @rejected ticket reply sd failure hsd hrun hfailure =>
    refine met_of_errand_nil hl ?_
    exact Forsaking.errand (.rejected hsd hrun hfailure)
  | @faulty t before after s n failure hmet hs ho =>
    rw [met_of_live hl] at hmet ⊢
    obtain rfl : after = [] := Flow.eq_nil_of_failsAt hmet ⟨n, hs, ho⟩
    exact hmet

/-- The record of a run has failed at a node: the log of the run before goes on with what is said
last. -/
structure FailedAt (n : Node) (failure : Failure) (r r' : Run) : Prop where
  status : r'.status = .failed
  error : r'.error = some failure.reason
  currentNodes : r'.currentNodes = []
  sayings : ∃ said, r'.sayings = r.sayings ++ said ++ n.lastWords failure

/-- A run fails that has told of the failure of a node. -/
theorem failedAt_failed {r₁ : Run} (said : List (LogLevel × String))
    (h : r₁.sayings = r.sayings ++ (said ++ n.complaint (.fails failure))) (now : Int) :
    FailedAt n failure r (r₁.failed now failure.reason) where
  status := rfl
  error := rfl
  currentNodes := rfl
  sayings := ⟨said, by rw [sayings_failed, h]; simp [Node.lastWords, Node.complaint]⟩

/-- A walk fails that comes to a node that fails. -/
theorem failedAt_of_departure (d : Departure e now run r l t) (h : Raises e run l t met n failure)
    (hl : (e.about run).live = some l) : ∃ r', FailedAt n failure r r' ∧
      ((e.take now t).about run).record = some r' ∧ ((e.take now t).about run).live = none ∧
      ((e.take now t).about run).timers = [] := by
  have hmet := met_of_raises h hl
  cases h with
  | @rejected ticket reply sd failure hsd hrun hfailure =>
    obtain ⟨id, rfl⟩ := d.accepted ticket reply rfl
    cases hfailure
  | @faulty t before after s n failure _ hs ho =>
    obtain ⟨a⟩ := exists_arrival d.going now (e.errand run l.flow t)
    have hsay := a.sayings
    rw [met_of_live hl] at hmet
    have hhalt : (l.flow.tour l.context (e.errand run l.flow t)).2 = .failed failure :=
      Flow.tour_failed_iff.2 ⟨s, by simp [hmet], n, hs, ho⟩
    rw [d.flow, d.context, hmet, d.sayings, List.flatMap_append, List.flatMap_singleton,
      Flow.remarks_of_processed hs, ho] at hsay
    rw [d.take, a.proceed, d.flow, d.context, hhalt, about_conclude_failed a.going]
    refine ⟨_, failedAt_failed (d.opening :: before.flatMap (l.flow.remarks l.context) ++
      n.announcement :: n.remarks l.context) ?_ now, rfl, rfl, rfl⟩
    rw [hsay]
    simp

/-- A run is forsaken whose message is not sent or not accepted. -/
theorem failedAt_of_forsaken (d : Forsaken e now run r l t) (h : Raises e run l t met n failure)
    (hl : (e.about run).live = some l) : ∃ r', FailedAt n failure r r' ∧
      ((e.take now t).about run).record = some r' ∧ ((e.take now t).about run).live = none ∧
      ((e.take now t).about run).timers = [] := by
  obtain ⟨share, duty, record, said, error, reason, hsay, -, -, -, -, habout⟩ := d
  cases h with
  | @rejected ticket reply sd failure hsd hrun hfailure =>
    cases reason with
    | @rejected _ _ sd' failure' hsd' _ hfailure' =>
      obtain rfl : sd' = sd := Option.some.inj (hsd'.symm.trans hsd)
      obtain rfl : failure' = failure := Option.some.inj (hfailure'.symm.trans hfailure)
      rw [habout]
      exact ⟨_, failedAt_failed [] hsay now, rfl, rfl, rfl⟩
  | faulty hmet hs ho =>
    rw [met_of_errand_nil hl reason.errand] at hmet
    simp at hmet

/-- **What is held about a run after a turn in which a node of it fails.** -/
theorem failedAt_of_raises (hc : e.Coherent) (hg : (e.about run).Going [] r l)
    (h : Raises e run l t met n failure) (now : Int) : ∃ r', FailedAt n failure r r' ∧
      ((e.take now t).about run).record = some r' ∧ ((e.take now t).about run).live = none ∧
      ((e.take now t).about run).timers = [] := by
  rcases exists_departure hc.tidy hg (h.works hg.live) now with ⟨⟨d⟩⟩ | ⟨⟨d⟩⟩
  · exact failedAt_of_departure d h hg.live
  · exact failedAt_of_forsaken d h hg.live

/-- A run that has ended comes to nothing any more. -/
theorem metAlong_of_terminal (hc : e.Coherent) (hr : (e.about run).record = some r)
    (hterm : r.status.terminal) {history : List (Int × Turn)} (ha : e.Admits history) :
    e.metAlong run history = [] := by
  induction history generalizing e with
  | nil => rfl
  | cons turn history ih =>
    obtain ⟨now, t⟩ := turn
    have hf := frozen_take hc hr hterm now ha.1
    rw [metAlong, met_of_none ((hc.known hr).of_terminal hr hterm).1, List.nil_append]
    exact ih (coherent_take hc now ha.1) (hf.record.trans hr) ha.2

/-- What lets a walk go on is a turn of the engine that can happen. -/
theorem regular_of_works (hw : t.Works e run) :
    t.Admitted e ∧ ¬ t.Starts ∧ ∀ effects, t ≠ .served effects := by
  cases t with
  | begin s => exact Turn.of_signal rfl e
  | reply ticket reply => exact Turn.of_signal rfl e
  | fire timer => exact Turn.of_signal rfl e
  | _ => exact hw.elim

/-- **A node that fails makes its run fail cleanly.**  Within the same turn the run has failed, with
what the failure says as its error, and the last two entries of its log tell so; it is at no node,
has no timers, and is live no more.  The outside is newly told that it has ended, so those who wait
for it are released when the host has served the engine, which what the engine is worth is enough
for; and whoever asks later is served at once.  The run comes to nothing behind the
node, and whatever follows, its record stays as it is. -/
theorem Reachable.fails_cleanly (h : e.Reachable) (hl : e.live.get? run = some l)
    (hr : Raises e run l t met n failure) (now : Int) :
    let e' := e.take now t
    ∃ r r' added,
      e.runs.get? run = some r ∧ e'.runs.get? run = some r' ∧ FailedAt n failure r r' ∧
      e'.timers.count run = 0 ∧ run ∉ e'.liveRuns ∧
      e'.effects = e.effects ++ added ∧ .ended run ∈ added ∧
      (∀ host : Host, host.engine = e' → ∀ w, host.awaited = some (run, w) → ∀ fuel,
        (host.absorb fuel).engine.effects = [] → (host.absorb fuel).Released w) ∧
      (∀ host : Host, host.engine = e' → ∀ fuel, e'.worth ≤ fuel →
        (host.absorb fuel).engine.effects = []) ∧
      e.met run t = met ∧
      ∀ history, e'.Admits history →
        (e'.follow history).runs.get? run = some r' ∧ e'.metAlong run history = [] ∧
        ∀ host : Host, host.engine = e'.follow history → ∀ timeout,
          host.wait run timeout = (host, .ended r') := by
  intro e'
  obtain ⟨r, hg, -⟩ := h.coherent.going hl
  obtain ⟨ha, hstarts, hserved⟩ := regular_of_works (hr.works hl)
  have hc : e'.Coherent := coherent_take h.coherent now ha
  obtain ⟨r', hfailed, hrec, hnone, htimers⟩ := failedAt_of_raises h.coherent hg hr now
  have hterm : r'.status.terminal := by rw [hfailed.status]; rfl
  obtain ⟨added, heffects, hended⟩ := (regular_take h.coherent now hstarts hserved).frank
  have hadded : .ended run ∈ added := (hended run).2 ⟨Option.isSome_iff_exists.2 ⟨l, hl⟩, hnone⟩
  refine ⟨r, r', added, hg.record, hrec, hfailed, count_eq_zero htimers, ?_, heffects, hadded,
    fun host heq w hw fuel => ?_, ?_, met_of_raises hr hl, fun history hadm => ?_⟩
  · have hget : e'.live.get? run = none := hnone
    simp [liveRuns, OrderedMap.mem_keys, hget]
  · refine Host.released_absorb ⟨hw, .inr ?_⟩ (heq ▸ hc) (by rw [heq]; exact hnone) fuel
    rw [heq, heffects]
    exact List.mem_append_right _ hadded
  · intro host heq fuel hfuel
    rw [← heq] at hc hfuel
    exact Host.effects_absorb hc hfuel
  · have hf := hc.frozen_follow hrec hterm hadm
    have hlast : ((e'.follow history).about run).record = some r' := hf.record.trans hrec
    refine ⟨hlast, metAlong_of_terminal hc hrec hterm hadm, fun host heq timeout => ?_⟩
    have hget : host.engine.runs.get? run = some r' := heq ▸ hlast
    have hlive : host.engine.isLive run = false := by
      rw [heq, isLive_eq, hf.live, hnone]
      rfl
    simp only [Host.wait, hlive, Bool.false_eq_true, if_false, Host.waitedFor, hget]

/-- The greeting of a customer, with the wait before the message. -/
def waitingGreeting : Flow :=
  { greeting with edges := [⟨"1", "t", "d", none, none⟩, ⟨"2", "t", "a", none, none⟩,
      ⟨"3", "d", "b", none, none⟩] }

/-- A greeting whose message is not sent, without a word of explanation, while a delay is on. -/
theorem waitingGreeting_fails_cleanly :
    let e := Engine.follow { channel := "mail" }
      [(0, .start "r" waitingGreeting order), (1, .begin "r")]
    let e' := e.take 2 (.reply 0 (.failed (.send "")))
    e.timers.count "r" = 1 ∧ e'.timers.count "r" = 0 ∧ "r" ∉ e'.liveRuns ∧
      ∃ r', e'.runs.get? "r" = some r' ∧ r'.status = .failed ∧
        r'.error = some "MessageSendError" ∧
        (e'.follow [(3, .fire 0)]).runs.get? "r" = some r' := by
  intro e e'
  have hreach : e.Reachable := (Reachable.idle "mail").follow ⟨rfl, trivial, trivial⟩
  obtain ⟨l, hl⟩ := Option.isSome_iff_exists.1 (show (e.live.get? "r").isSome by decide +kernel)
  have hsent : (e.sending.lookup 0).map Sending.run = some "r" := by decide +kernel
  obtain ⟨sd, hsd, hrun⟩ := Option.map_eq_some_iff.1 hsent
  have hraises : Raises e "r" l (.reply 0 (.failed (.send ""))) [] sd.node (.send "") :=
    .rejected hsd hrun rfl
  obtain ⟨r, r', added, -, hr', hfailed, htimers, hlive, -, -, -, -, -, hlater⟩ :=
    Reachable.fails_cleanly hreach hl hraises 2
  have hadm : e'.Admits [(3, .fire 0)] := ⟨trivial, trivial⟩
  exact ⟨by decide +kernel, htimers, hlive, r', hr', hfailed.status, hfailed.error,
    (hlater _ hadm).1⟩

end Engine

end Campaign
