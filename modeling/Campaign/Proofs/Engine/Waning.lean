import Campaign.Proofs.Engine.Coherence
import Campaign.Proofs.Engine.Signals
/-!
# Runs come and go in good order

A run becomes live when it starts and at no other time, and while it is live it follows the flow
with which it started.  Whatever else happens, live runs only become fewer, in the order in which
they were, and no record is lost (`Engine.Wanes`).  The outside is told that a run has ended when it
is live no more (`Engine.Frank`), and beside that it is asked for nothing but timers and messages
(`Engine.Modest`).  An operation on a run whose record is known leads to no mishap
(`Engine.Orderly`): what is changed is there, and a status moves only where it may.

* `regular_take` says so of every turn in which no run starts;
* `Reachable.mishaps` says that nothing ever goes wrong.
-/
namespace Campaign

/-- Whether a run starts in a turn. -/
def Turn.Starts : Turn → Prop
  | .start _ _ _ => True
  | _ => False

/-- The signal that a turn brings. -/
def Turn.signal? : Turn → Option Signal
  | .begin run => some (.walk run)
  | .reply ticket _ => some (.reply ticket)
  | .fire timer => some (.timer timer)
  | _ => none

/-- A turn that brings a signal can take place at any time; no run starts in it. -/
theorem Turn.of_signal {t : Turn} {s : Signal} (h : t.signal? = some s) (e : Engine) :
    t.Admitted e ∧ ¬ t.Starts ∧ ∀ effects, t ≠ .served effects := by
  cases t with
  | begin run => exact ⟨trivial, id, by simp⟩
  | reply ticket reply => exact ⟨trivial, id, by simp⟩
  | fire timer => exact ⟨trivial, id, by simp⟩
  | _ => cases h

namespace Engine

/-- What can become of an engine as long as no run starts. -/
structure Wanes (e e' : Engine) : Prop where
  live : ∀ run l', e'.live.get? run = some l' →
    ∃ l, e.live.get? run = some l ∧ l'.flow = l.flow ∧ l'.event = l.event
  /-- The runs that are live stay in the order in which they were. -/
  order : e'.liveRuns.Sublist e.liveRuns
  recorded : ∀ run, (e.runs.get? run).isSome → (e'.runs.get? run).isSome
  tickets : e.tickets ≤ e'.tickets

/-- Whether the outside is newly told of the end of just those runs that end. -/
def Frank (e e' : Engine) : Prop :=
  ∃ added, e'.effects = e.effects ++ added ∧
    ∀ run, .ended run ∈ added ↔ (e.live.get? run).isSome ∧ e'.live.get? run = none

/-- Whether the outside is told of no more than the ends of runs, and is asked for no more than the
timers and messages that are new. -/
def Modest (e e' : Engine) : Prop :=
  e'.effects.length + e'.liveRuns.length + e.commissions ≤
    e.effects.length + e.liveRuns.length + e'.commissions

/-- What an operation on a run does, without a mishap if there is a record of the run. -/
structure Orderly (run : String) (e e' : Engine) : Prop extends Wanes e e' where
  frank : Frank e e'
  asks : Asks e e'
  modest : Modest e e'
  mishaps : (e.runs.get? run).isSome → e'.mishaps = e.mishaps

variable {e e' e'' : Engine} {now : Int} {run : String} {r : Run} {l : Live}

namespace Wanes

theorem refl (e : Engine) : Wanes e e :=
  ⟨fun _ l' hl => ⟨l', hl, rfl, rfl⟩, .refl _, fun _ => id, Nat.le_refl _⟩

/-- A run that was not live is not live afterwards. -/
theorem none (h : Wanes e e') {s : String} (hs : e.live.get? s = none) :
    e'.live.get? s = none := by
  rw [Option.eq_none_iff_forall_not_mem]
  intro l' hl'
  obtain ⟨l, hl, -⟩ := h.live s l' hl'
  rw [hs] at hl
  cases hl

theorem trans (h₁ : Wanes e e') (h₂ : Wanes e' e'') : Wanes e e'' where
  live := by
    intro s l'' hl''
    obtain ⟨l', hl', hflow', hevent'⟩ := h₂.live s l'' hl''
    obtain ⟨l, hl, hflow, hevent⟩ := h₁.live s l' hl'
    exact ⟨l, hl, hflow'.trans hflow, hevent'.trans hevent⟩
  order := h₂.order.trans h₁.order
  recorded := fun s hs => h₂.recorded s (h₁.recorded s hs)
  tickets := Nat.le_trans h₁.tickets h₂.tickets

/-- A run that is live was live. -/
theorem isSome (h : Wanes e e') {s : String} (hs : (e'.live.get? s).isSome) :
    (e.live.get? s).isSome := by
  obtain ⟨l', hl'⟩ := Option.isSome_iff_exists.1 hs
  obtain ⟨l, hl, -⟩ := h.live s l' hl'
  simp [hl]

end Wanes

/-- An operation after which the same runs are live, and that tells of no end. -/
theorem Frank.of_live {added : List Effect} (he : e'.effects = e.effects ++ added)
    (hn : ∀ s, .ended s ∉ added)
    (hl : ∀ s, (e.live.get? s).isSome → (e'.live.get? s).isSome) : Frank e e' := by
  refine ⟨added, he, fun s => ⟨fun hm => absurd hm (hn s), fun ⟨hlive, hnone⟩ => ?_⟩⟩
  have hsome := hl s hlive
  rw [hnone] at hsome
  cases hsome

theorem Frank.refl (e : Engine) : Frank e e :=
  .of_live (List.append_nil _).symm (fun _ => List.not_mem_nil) fun _ => id

theorem Frank.trans (h₁ : Frank e e') (h₂ : Frank e' e'') (hw₁ : Wanes e e') (hw₂ : Wanes e' e'') :
    Frank e e'' := by
  obtain ⟨added₁, he₁, hm₁⟩ := h₁
  obtain ⟨added₂, he₂, hm₂⟩ := h₂
  refine ⟨added₁ ++ added₂, by rw [he₂, he₁, List.append_assoc], fun s => ?_⟩
  rw [List.mem_append, hm₁, hm₂]
  constructor
  · rintro (⟨hlive, hnone⟩ | ⟨hlive, hnone⟩)
    · exact ⟨hlive, hw₂.none hnone⟩
    · exact ⟨hw₁.isSome hlive, hnone⟩
  · rintro ⟨hlive, hnone⟩
    cases hmid : e'.live.get? s with
    | none => exact .inl ⟨hlive, rfl⟩
    | some l => exact .inr ⟨rfl, hnone⟩

/-- What the outside is told of the end of a run. -/
theorem Frank.of_mem (h : Frank e e') {s : String} (hm : .ended s ∈ e'.effects) :
    .ended s ∈ e.effects ∨ (e.live.get? s).isSome ∧ e'.live.get? s = none := by
  obtain ⟨added, he, hadded⟩ := h
  rw [he, List.mem_append, hadded] at hm
  exact hm

theorem Modest.refl (e : Engine) : Modest e e := Nat.le_refl _

theorem Modest.trans (h₁ : Modest e e') (h₂ : Modest e' e'') : Modest e e'' := by
  unfold Modest at *
  omega

/-- An operation that changes no more than records and what is known of live runs. -/
theorem Modest.of_eq (hl : e'.liveRuns.length ≤ e.liveRuns.length) (he : e'.effects = e.effects)
    (hc : e'.commissions = e.commissions) : Modest e e' := by
  rw [Modest, he, hc]
  omega

namespace Orderly

theorem refl (run : String) (e : Engine) : Orderly run e e :=
  ⟨.refl e, .refl e, .refl e, .refl e, fun _ => rfl⟩

theorem trans (h₁ : Orderly run e e') (h₂ : Orderly run e' e'') : Orderly run e e'' where
  toWanes := h₁.toWanes.trans h₂.toWanes
  frank := h₁.frank.trans h₂.frank h₁.toWanes h₂.toWanes
  asks := h₁.asks.trans h₂.asks
  modest := h₁.modest.trans h₂.modest
  mishaps := fun hr => (h₂.mishaps (h₁.recorded run hr)).trans (h₁.mishaps hr)

/-- An operation that touches neither records nor live runs, and tells of no end. -/
theorem of_eq (hr : e'.runs = e.runs) (hl : e'.live = e.live) (hm : e'.mishaps = e.mishaps)
    (ht : e.tickets ≤ e'.tickets) {added : List Effect} (he : e'.effects = e.effects ++ added)
    (hn : ∀ s, .ended s ∉ added)
    (hs : ∀ s, e'.Expects s → e.Expects s ∨ ∃ x ∈ added, x.signal? = some s)
    (hc : e.commissions + added.length ≤ e'.commissions) : Orderly run e e' where
  live := fun _ l' h => ⟨l', hl ▸ h, rfl, rfl⟩
  order := by
    rw [liveRuns, hl]
    exact .refl _
  recorded := fun _ h => hr ▸ h
  tickets := ht
  frank := .of_live he hn fun _ => by rw [hl]; exact id
  asks := ⟨added, he, hs⟩
  modest := by
    rw [Modest, he, List.length_append, liveRuns, hl, liveRuns]
    omega
  mishaps := fun _ => hm

/-- An operation that touches only what stands beside records, live runs and effects. -/
theorem aside (hr : e'.runs = e.runs) (hl : e'.live = e.live) (hm : e'.mishaps = e.mishaps)
    (ht : e'.tickets = e.tickets) (he : e'.effects = e.effects)
    (hn : e'.timers.next = e.timers.next) (hu : e'.unstarted ⊆ e.unstarted)
    (hs : e'.sending ⊆ e.sending) (hp : e'.timers.pending ⊆ e.timers.pending) :
    Orderly run e e' := by
  refine of_eq hr hl hm (Nat.le_of_eq ht.symm) (he.trans (List.append_nil _).symm)
    (fun _ => List.not_mem_nil) (fun s hexp => .inl ?_) (by simp [commissions, ht, hn])
  exact hexp.of_subset (fun run h => by simpa [isLive, hl] using h) hu hs hp

theorem note (run : String) (e : Engine) (n : Notice) : Orderly run e (e.note n) :=
  .aside rfl rfl rfl rfl rfl rfl (.refl _) (.refl _) (.refl _)

end Orderly

/-! ## Operations on records -/

theorem orderly_change (f : Run → Run) : Orderly run e (e.change run f) := by
  have hrec : ∀ s, (e.runs.get? s).isSome → ((e.change run f).runs.get? s).isSome := by
    intro s hs
    have hrecord : ((e.change run f).about s).record =
        if s = run then (e.about s).record.map f else (e.about s).record := by
      rw [about_change_eq]
      split <;> rfl
    have hs' : (e.about s).record.isSome := hs
    change ((e.change run f).about s).record.isSome
    rw [hrecord]
    split
    · simpa using hs'
    · exact hs'
  unfold change RunStore.update at *
  split
  · rename_i r hr
    simp only [hr] at hrec
    exact ⟨⟨fun _ l' hl => ⟨l', hl, rfl, rfl⟩, .refl _, hrec, Nat.le_refl _⟩, .refl e, .refl e,
      .refl e, fun _ => rfl⟩
  · rename_i hr
    simp only [hr] at hrec
    refine ⟨⟨fun _ l' hl => ⟨l', hl, rfl, rfl⟩, .refl _, hrec, Nat.le_refl _⟩, .refl e, .refl e,
      .refl e, fun h => ?_⟩
    rw [hr] at h
    cases h

theorem orderly_log (level : LogLevel) (message : String) (payload : Value) :
    Orderly run e (e.log now run level message payload) := orderly_change _

/-- A move of the status that is allowed is a change to the record. -/
theorem orderly_setStatus {next : RunStatus} (hr : e.runs.get? run = some r)
    (hn : next ∈ r.status.allowed) (f : Run → Run) :
    Orderly run e (e.setStatus run next f) := by
  simp only [setStatus, hr, RunStatus.move, hn, if_true]
  exact orderly_change _

theorem mishaps_dropTimers : (e.dropTimers now run).mishaps = e.mishaps := by
  simp only [dropTimers]
  split <;> rfl

theorem orderly_dropTimers : Orderly run e (e.dropTimers now run) := by
  simp only [dropTimers]
  split <;> exact .aside rfl rfl rfl rfl rfl rfl (.refl _) (.refl _) List.filter_sublist.subset

/-! ## Operations on live runs -/

theorem orderly_withLive {f : Live → Live}
    (hf : ∀ l, (f l).flow = l.flow ∧ (f l).event = l.event) :
    Orderly run e (e.withLive run f) where
  live := by
    intro s l' hl'
    simp only [withLive, OrderedMap.get?_modify] at hl'
    split at hl'
    · obtain ⟨l, hl, rfl⟩ := Option.map_eq_some_iff.1 hl'
      exact ⟨l, hl, hf l⟩
    · exact ⟨l', hl', rfl, rfl⟩
  order := by
    simp only [liveRuns, withLive, OrderedMap.keys_modify]
    exact .refl _
  recorded := fun _ => id
  tickets := Nat.le_refl _
  frank := by
    refine .of_live (List.append_nil _).symm (fun _ => List.not_mem_nil) fun s hs => ?_
    simp only [withLive, OrderedMap.get?_modify]
    split
    · simpa using hs
    · exact hs
  asks := by
    refine .of_expects (List.append_nil _).symm fun signal h =>
      h.of_subset (fun s hs => ?_) (.refl _) (.refl _) (.refl _)
    simp only [isLive, OrderedMap.contains, withLive, OrderedMap.get?_modify] at hs ⊢
    split at hs
    · simpa using hs
    · exact hs
  modest := by
    refine .of_eq (Nat.le_of_eq ?_) rfl rfl
    simp only [liveRuns, withLive, OrderedMap.keys_modify]
  mishaps := fun _ => rfl

theorem orderly_showNodes : Orderly run e (e.showNodes run) := by
  unfold showNodes
  split
  · exact orderly_change _
  · exact .refl run e

/-- A live run comes to other nodes. -/
theorem orderly_occupied {f : Live → Live}
    (hf : ∀ l, (f l).flow = l.flow ∧ (f l).event = l.event) :
    Orderly run e ((e.withLive run f).showNodes run) :=
  (orderly_withLive hf).trans orderly_showNodes

theorem orderly_enter (e : Engine) (run node : String) : Orderly run e (e.enter run node) :=
  orderly_occupied fun _ => ⟨rfl, rfl⟩

theorem orderly_leave (e : Engine) (run node : String) : Orderly run e (e.leave run node) :=
  orderly_occupied fun _ => ⟨rfl, rfl⟩

theorem orderly_leaveTimes (e : Engine) (run node : String) (n : Nat) :
    Orderly run e (e.leaveTimes run node n) := by
  induction n generalizing e with
  | zero => exact .refl run e
  | succ n ih => exact (orderly_leave e run node).trans (ih _)

theorem orderly_failNode (n : Node) (failure : Failure) :
    Orderly run e (e.failNode now run n failure) := by
  unfold failNode
  split
  · exact (orderly_log _ _ _).trans (orderly_leave _ _ _)
  · exact orderly_leave _ _ _

/-! ## Ends -/

/-- The outside is told of the end of a run that is struck off. -/
theorem orderly_finish : Orderly run e (e.finish run) := by
  unfold finish
  split
  case isFalse => exact .refl run e
  rename_i hlive
  refine ⟨⟨fun s l' hl' => ?_, e.live.keys_remove_sublist run, fun _ => id, Nat.le_refl _⟩,
    ⟨[.ended run], rfl, fun s => ?_⟩, .of_expects rfl ?_, ?_, fun _ => rfl⟩
  · simp only [emit, OrderedMap.get?_remove] at hl'
    split at hl'
    · cases hl'
    · exact ⟨l', hl', rfl, rfl⟩
  · simp only [List.mem_singleton, Effect.ended.injEq, emit, OrderedMap.get?_remove]
    constructor
    · rintro rfl
      exact ⟨hlive, if_pos rfl⟩
    · rintro ⟨hs, hnone⟩
      by_contra hne
      rw [if_neg hne] at hnone
      rw [hnone] at hs
      cases hs
  · refine fun signal h => h.of_subset (fun s hs => ?_) (.refl _) (.refl _) (.refl _)
    simp only [isLive, OrderedMap.contains, emit, OrderedMap.get?_remove] at hs ⊢
    split at hs
    · cases hs
    · exact hs
  · have hfewer := OrderedMap.length_keys_remove_lt hlive
    simp only [Modest, emit, List.length_append, List.length_singleton, liveRuns, commissions]
    omega

/-- A run that ends has its record changed, is struck off, and operators are told. -/
theorem orderly_end {next : RunStatus} (hr : e.runs.get? run = some r)
    (hn : next ∈ r.status.allowed) (level : LogLevel) (message : String) (payload : Value)
    (f : Run → Run) (n : Notice) :
    Orderly run e ((((e.log now run level message payload).setStatus run next f).finish run).note
      n) := by
  have hlogged : (e.log now run level message payload).runs.get? run =
      some (r.logged now level message payload) := by
    have hrecord : (e.about run).record = some r := hr
    change ((e.log now run level message payload).about run).record = _
    rw [about_log, hrecord]
    rfl
  exact (((orderly_log level message payload).trans (orderly_setStatus hlogged hn f)).trans
    orderly_finish).trans (.note _ _ _)

/-- It is in order to look whether a live run is over, if the run is going. -/
theorem orderly_complete
    (h : ∀ l, (e.about run).live = some l → ∃ r, (e.about run).Going [] r l) :
    Orderly run e (e.complete now run) := by
  unfold complete
  split
  · exact .refl run e
  · rename_i l hl
    split
    · rename_i hdone
      obtain ⟨r, hg⟩ := h l hl
      simp only [Bool.and_eq_true, decide_eq_true_eq] at hdone
      obtain ⟨-, -, -, hs⟩ := hg.done hdone.1 hdone.2
      exact orderly_end hg.record (by simp [hs, RunStatus.allowed]) _ _ _ _ _
    · exact .refl run e

theorem orderly_fail (error : String) : Orderly run e (e.fail now run error) := by
  unfold fail
  extract_lets ended
  split
  · exact .note _ _ _
  · rename_i hnot
    cases hr : e.runs.get? run with
    | none => exact absurd (by simp [ended, hr]) hnot
    | some r =>
      have hdropped : (e.dropTimers now run).runs.get? run = some r := by
        change ((e.dropTimers now run).about run).record = _
        rw [about_dropTimers]
        exact hr
      have hmove : RunStatus.failed ∈ r.status.allowed := by
        have hterm : ¬ r.status.terminal = true := by simpa [ended, hr] using hnot
        revert hterm
        cases r.status <;> decide
      exact orderly_dropTimers.trans (orderly_end hdropped hmove _ _ _ _ _)

/-! ## Walks -/

/-- A delay begins: its timer is set. -/
theorem orderly_schedule (c : Continuation) (n : Notice) (ms : Int) :
    let e' := (e.withLive run fun l => { l with outstanding := l.outstanding + 1 }).note n
    Orderly run e
      ({ e' with timers := e'.timers.schedule run c.node.id c }.emit (.arm e'.timers.next ms)) := by
  intro e'
  have hlive : Orderly run e
      (e.withLive run fun l => { l with outstanding := l.outstanding + 1 }) :=
    orderly_withLive fun _ => ⟨rfl, rfl⟩
  refine hlive.trans (.of_eq rfl rfl rfl (Nat.le_refl _) rfl (by simp) (fun s hs => ?_) ?_)
  · cases s with
    | walk run => exact .inl hs
    | reply ticket => exact .inl hs
    | timer number =>
      simp only [Expects, emit, Scheduler.schedule, List.map_append, List.mem_append,
        List.map_cons, List.map_nil, List.mem_singleton] at hs
      refine hs.imp_right ?_
      rintro rfl
      exact ⟨_, List.mem_singleton_self _, rfl⟩
  · simp only [commissions, emit, e', note, withLive, Scheduler.schedule, List.length_singleton]
    omega

theorem orderly_visit (e : Engine) (now : Int) (run : String) (context : Value)
    (path : List String) (n : Node) : Orderly run e (e.visit now run context path n).1 := by
  unfold visit
  cases n.kind <;> dsimp only
  case trigger => exact .refl run e
  case finish => exact orderly_log _ _ _
  case action =>
    unfold visitAction
    split
    · exact orderly_log _ _ _
    · split <;> exact .refl run e
    · exact .refl run e
  case condition =>
    unfold visitCondition
    split
    · exact orderly_log _ _ _
    · split
      · exact orderly_log _ _ _
      · exact .refl run e
    · exact .refl run e
  case delay =>
    unfold visitDelay
    split
    · exact orderly_log _ _ _
    · exact (orderly_log _ _ _).trans (orderly_schedule ⟨n, path⟩ _ _)
    · exact .refl run e

/-- A node that is processed within a walk. -/
theorem orderly_node {context : Value} {path : List String} {n : Node} {message : String}
    {v : Visit} (hv : ((e.log now run .info message .null).enter run n.id).visit now run context
      path n = (e', v)) : Orderly run e e' := by
  have hw := orderly_visit ((e.log now run .info message .null).enter run n.id) now run context path
    n
  rw [hv] at hw
  exact ((orderly_log _ _ _).trans (orderly_enter _ _ _)).trans hw

theorem orderly_walk (now : Int) (run : String) (flow : Flow) (context : Value) (e : Engine)
    (stops : List Stop) : Orderly run e (walk now run flow context e stops).1 := by
  fun_induction walk now run flow context e stops with
  | case1 e => exact .refl run e
  | case2 e s rest _ hn ih => exact (orderly_log _ _ _).trans ih
  | case3 e s rest _ n hn hp ih => exact (orderly_log _ _ _).trans ih
  | case4 e s rest _ n hn hp path e₁ e₂ way hv ih =>
    exact ((orderly_node hv).trans (orderly_leave _ _ _)).trans ih
  | case5 e s rest _ n hn hp path e₁ e₂ hv ih => exact (orderly_node hv).trans ih
  | case6 e s rest _ n hn hp path e₁ e₂ message hv => exact orderly_node hv
  | case7 e s rest _ n hn hp path e₁ e₂ failure hv =>
    exact (orderly_node hv).trans (orderly_failNode _ _)
  | case8 e s rest hlive => exact .refl run e

theorem orderly_settle (origin : Origin) : Orderly run e (e.withLive run (Origin.settle origin)) :=
  orderly_withLive fun _ => by cases origin <;> exact ⟨rfl, rfl⟩

/-- What follows the end of a walk is in order, if the run is going or has ended. -/
theorem orderly_conclude {origin : Origin}
    (h : ∀ l, (e.about run).live = some l → ∃ r, (e.about run).Going [origin] r l)
    (flowId : String) (halt : Halt) : Orderly run e (conclude now run flowId origin (e, halt)) := by
  cases halt with
  | ended =>
    refine (orderly_settle origin).trans (orderly_complete fun l hl => ?_)
    rw [about_withLive] at hl
    obtain ⟨l₀, hl₀, rfl⟩ := Option.map_eq_some_iff.1 hl
    obtain ⟨r, hg⟩ := h l₀ hl₀
    exact ⟨r, going_settle hg⟩
  | failed failure =>
    have hnote : Orderly run e (e.note (failureNotice now run flowId failure origin)) :=
      .note _ _ _
    cases origin with
    | trigger => exact hnote.trans (orderly_fail _)
    | delay node => exact (hnote.trans (orderly_settle (.delay node))).trans (orderly_fail _)
  | sending node path rest message =>
    refine .of_eq rfl rfl rfl (Nat.le_succ _) rfl (by simp) (fun s hs => ?_) (Nat.le_refl _)
    cases s with
    | walk run => exact .inl hs
    | timer number => exact .inl hs
    | reply ticket =>
      simp only [conclude, Expects, emit, List.map_append, List.mem_append, List.map_cons,
        List.map_nil, List.mem_singleton] at hs
      refine hs.imp_right ?_
      rintro rfl
      exact ⟨_, List.mem_singleton_self _, rfl⟩

theorem orderly_proceed {origin : Origin} (h : (e.about run).Going [origin] r l) (flowId : String)
    (stops : List Stop) : Orderly run e (e.proceed now run flowId origin stops) := by
  rw [proceed_eq h.live]
  obtain ⟨r', l', hg, -⟩ := h.walked_of (walked_walk now run l.flow l.context e stops).own
  refine (orderly_walk _ _ _ _ _ _).trans (orderly_conclude (fun l₁ hl₁ => ?_) _ _)
  obtain rfl : l' = l₁ := Option.some.inj (hg.live.symm.trans hl₁)
  exact ⟨r', hg⟩

/-! ## Turns -/

/-- What happens when a walk begins, once it is no longer to begin. -/
theorem orderly_begun (hc : e.Coherent) (hu : run ∈ e.unstarted) (now : Int) :
    Orderly run (e.begun run) (e.begin now run) := by
  rw [begin_eq, if_pos hu]
  split
  · exact .refl run _
  · rename_i l hl
    obtain ⟨r, hg, -⟩ := hc.going hl
    have hcount : (e.about run).unstarted ≠ 0 := Nat.ne_of_gt (List.count_pos_iff.2 hu)
    have hgoing := going_begin hg hcount
    have hpending : r.status = .pending := by rw [hg.status, if_neg hcount]
    have hrecord : (e.begun run).runs.get? run = some r := hg.record
    have hset : Orderly run (e.begun run) ((e.begun run).setStatus run .running id) :=
      orderly_setStatus hrecord (by simp [hpending, RunStatus.allowed]) id
    split
    · exact hset.trans (orderly_fail _)
    · obtain ⟨r', l', hlogged, -⟩ := hgoing.walked_of (walked_log _ _ _ _).own
      exact (hset.trans (orderly_log _ _ _)).trans (orderly_proceed hlogged _ _)

theorem orderly_begin (hc : e.Coherent) (now : Int) (hu : run ∈ e.unstarted) :
    Orderly run e (e.begin now run) := by
  have hbegun : Orderly run e (e.begun run) :=
    .aside rfl rfl rfl rfl rfl rfl List.erase_subset (.refl _) (.refl _)
  exact hbegun.trans (orderly_begun hc hu now)

/-- What happens when a reply arrives, once its walk no longer waits. -/
theorem orderly_answered (hc : e.Coherent) (now : Int) {ticket : Nat} {sd : Sending}
    (hsd : e.sending.lookup ticket = some sd) (reply : Reply) :
    Orderly sd.run (e.answered ticket) (e.reply now ticket reply) := by
  have hgoing : ∀ l, ((e.answered ticket).about sd.run).live = some l →
      ∃ r, ((e.answered ticket).about sd.run).Going [sd.origin] r l := by
    intro l hl
    obtain ⟨r, hg, -⟩ := hc.going (l := l) hl
    exact ⟨r, going_answered hc.tidy (mem_of_lookup_sending hsd) hg⟩
  have hfailed : ∀ failure, Orderly sd.run (e.answered ticket) (conclude now sd.run sd.flowId
      sd.origin ((e.answered ticket).failNode now sd.run sd.node failure, .failed failure)) := by
    intro failure
    have hleft : Orderly sd.run (e.answered ticket)
      ((e.answered ticket).failNode now sd.run sd.node failure) := orderly_failNode sd.node failure
    refine hleft.trans (orderly_conclude (fun l hl => ?_) _ _)
    obtain ⟨l₀, hl₀, -⟩ := hleft.live sd.run l hl
    obtain ⟨r, hg⟩ := hgoing l₀ hl₀
    obtain ⟨r', l', hg', -⟩ := hg.walked_of (walked_failNode now sd.node failure).own
    obtain rfl : l' = l := Option.some.inj (hg'.live.symm.trans hl)
    exact ⟨r', hg'⟩
  rw [reply_eq]
  simp only [hsd, afterReply]
  split
  · exact hfailed _
  · exact orderly_conclude hgoing _ _
  · exact hfailed _
  · exact hfailed _
  · rename_i l id hl
    obtain ⟨r, hg⟩ := hgoing _ hl
    have hw : Walked sd.run _ [] (e.answered ticket) _ :=
      (walked_log now .info ("Sent message via " ++ e.channel) (.object [("result", .object
        [("ok", .bool true), ("id", .text id)])])).trans (walked_leave sd.node.id)
    obtain ⟨r', l', hleft, -⟩ := hg.walked_of hw.own
    exact ((orderly_log _ _ _).trans (orderly_leave _ _ _)).trans (orderly_proceed hleft _ _)

theorem orderly_reply (hc : e.Coherent) (now : Int) {ticket : Nat} {sd : Sending}
    (hsd : e.sending.lookup ticket = some sd) (reply : Reply) :
    Orderly sd.run e (e.reply now ticket reply) := by
  have hanswered : Orderly sd.run e (e.answered ticket) :=
    .aside rfl rfl rfl rfl rfl rfl (.refl _) List.filter_sublist.subset (.refl _)
  exact hanswered.trans (orderly_answered hc now hsd reply)

/-- What happens when a timer fires, once it is no longer set. -/
theorem orderly_rung (hc : e.Coherent) (now : Int) {number : Nat} {t : Timer Continuation}
    (hfind : e.timers.find? number = some t) :
    Orderly t.run (e.rung number) (e.fire now number) := by
  obtain ⟨hm, hnum⟩ := Scheduler.mem_of_find? hfind
  rw [fire_eq]
  simp only [hfind]
  split
  · exact .refl _ _
  · rename_i l hl
    obtain ⟨r, hg, -⟩ := hc.going hl
    obtain ⟨r', l', hleft, -⟩ := (hnum ▸ going_rung hc.tidy hm t.what.node.id hg).walked_of
      ((walked_leave t.what.node.id).trans (walked_log now .info
        ("Delay completed for " ++ t.what.node.label) .null)).own
    exact ((orderly_leave _ _ _).trans (orderly_log _ _ _)).trans (orderly_proceed hleft _ _)

theorem orderly_fire (hc : e.Coherent) (now : Int) {number : Nat} {t : Timer Continuation}
    (hfind : e.timers.find? number = some t) : Orderly t.run e (e.fire now number) := by
  have hrung : Orderly t.run e (e.rung number) :=
    .aside rfl rfl rfl rfl rfl rfl (.refl _) (.refl _) List.filter_sublist.subset
  exact hrung.trans (orderly_rung hc now hfind)

theorem orderly_cancelRun (e : Engine) (now : Int) (run : String) :
    Orderly run e (e.cancelRun now run).1 := by
  have hdropped : Orderly run e (e.dropTimers now run) := orderly_dropTimers
  have hlive : Orderly run (e.dropTimers now run) ((e.dropTimers now run).withLive run fun l =>
      { l with outstanding := l.outstanding - e.timers.count run }) :=
    orderly_withLive fun _ => ⟨rfl, rfl⟩
  simp only [cancelRun]
  split
  · exact (hdropped.trans hlive).trans (orderly_fail _)
  · exact hdropped

theorem orderly_cancelDelay (hc : e.Coherent) (now : Int) (run node : String) :
    Orderly run e (e.cancelDelay now run node).1 := by
  have hundelayed : Orderly run e (e.undelayed run node) :=
    .aside rfl rfl rfl rfl rfl rfl (.refl _) (.refl _) List.filter_sublist.subset
  have hlive : Orderly run (e.undelayed run node) ((e.undelayed run node).withLive run fun l =>
      { l with outstanding := l.outstanding - e.timers.countAt run node }) :=
    orderly_withLive fun _ => ⟨rfl, rfl⟩
  rw [cancelDelay_eq]
  split
  · refine (((hundelayed.trans hlive).trans (orderly_leaveTimes _ _ _ _)).trans
      (orderly_log _ _ _)).trans (orderly_complete fun l hl => ?_)
    rename_i hcond
    simp only [Bool.and_eq_true, isLive_eq, Option.isSome_iff_exists] at hcond
    obtain ⟨⟨l₀, hl₀⟩, -⟩ := hcond
    obtain ⟨r, hg, -⟩ := hc.going hl₀
    obtain ⟨r', l', hg', -⟩ :=
      (going_undelayed hg node).walked_of (walked_undelayed e now run node).own
    obtain rfl : l' = l := Option.some.inj (hg'.live.symm.trans hl)
    exact ⟨r', hg'⟩
  · exact hundelayed

/-- There is a record of every run about which the engine holds anything. -/
theorem Coherent.recorded (hc : e.Coherent) (h : ¬ (e.about run).Unknown) :
    (e.runs.get? run).isSome :=
  ((hc.phase run).resolve_left h).record

/-- What a turn does in which no run starts, and in which the outside takes nothing up. -/
structure Regular (e e' : Engine) : Prop extends Wanes e e' where
  frank : Frank e e'
  asks : Asks e e'
  modest : Modest e e'
  mishaps : e'.mishaps = e.mishaps

theorem Regular.refl (e : Engine) : Regular e e := ⟨.refl e, .refl e, .refl e, .refl e, rfl⟩

theorem Orderly.regular (h : Orderly run e e') (hr : (e.runs.get? run).isSome) : Regular e e' :=
  ⟨h.toWanes, h.frank, h.asks, h.modest, h.mishaps hr⟩

theorem regular_cancelRun (hc : e.Coherent) (now : Int) (run : String) :
    Regular e (e.cancelRun now run).1 := by
  have h := orderly_cancelRun e now run
  cases hl : (e.about run).live with
  | some l =>
    obtain ⟨r, hg, -⟩ := hc.going hl
    exact h.regular (Option.isSome_iff_exists.2 ⟨r, hg.record⟩)
  | none =>
    have hlive : (e.dropTimers now run).isLive run = false := by simp [isLive_eq, hl]
    refine ⟨h.toWanes, h.frank, h.asks, h.modest, ?_⟩
    simp only [cancelRun, hlive, Bool.false_eq_true, if_false]
    exact mishaps_dropTimers

theorem regular_cancelDelay (hc : e.Coherent) (now : Int) (run node : String) :
    Regular e (e.cancelDelay now run node).1 := by
  have h := orderly_cancelDelay hc now run node
  cases hl : (e.about run).live with
  | some l =>
    obtain ⟨r, hg, -⟩ := hc.going hl
    exact h.regular (Option.isSome_iff_exists.2 ⟨r, hg.record⟩)
  | none =>
    have hlive : e.isLive run = false := by simp [isLive_eq, hl]
    refine ⟨h.toWanes, h.frank, h.asks, h.modest, ?_⟩
    simp only [cancelDelay_eq, hlive, Bool.false_and, Bool.false_eq_true, if_false]
    rfl

/-- **As long as no run starts, live runs only become fewer**, no record is lost, the outside is
told of the end of a run when it has ended, and there is no mishap. -/
theorem regular_take (hc : e.Coherent) (now : Int) {t : Turn} (hs : ¬ t.Starts)
    (hserved : ∀ effects, t ≠ .served effects) : Regular e (e.take now t) := by
  cases t with
  | start run flow event => exact absurd trivial hs
  | begin run =>
    by_cases hu : run ∈ e.unstarted
    · refine (orderly_begin hc now hu).regular (hc.recorded fun hunknown => ?_)
      exact absurd hunknown.unstarted (Nat.ne_of_gt (List.count_pos_iff.2 hu))
    · exact (take_begin_of_not_mem hu now).symm ▸ .refl e
  | reply ticket reply =>
    cases hsd : e.sending.lookup ticket with
    | none => exact (take_reply_of_none hsd now reply).symm ▸ .refl e
    | some sd =>
      refine (orderly_reply hc now hsd reply).regular (hc.recorded fun hunknown => ?_)
      have hperm := perm_sending_answered hc.tidy (mem_of_lookup_sending hsd)
      exact absurd (hunknown.sending ▸ hperm).length_eq (by simp)
  | fire timer =>
    cases hfind : e.timers.find? timer with
    | none => exact (take_fire_of_none hfind now).symm ▸ .refl e
    | some t =>
      refine (orderly_fire hc now hfind).regular (hc.recorded fun hunknown => ?_)
      have hperm := perm_timers_rung hc.tidy (Scheduler.mem_of_find? hfind).1
      exact absurd (hunknown.timers ▸ hperm).length_eq (by simp)
  | cancelRun run => exact regular_cancelRun hc now run
  | cancelDelay run node => exact regular_cancelDelay hc now run node
  | cancelFlowRuns flowId =>
    refine (take_cancelFlowRuns_induction (p := fun e' => e'.Coherent ∧ Regular e e')
      (fun e' now run h => ?_) ⟨hc, .refl e⟩ now flowId).2
    have hnext := regular_cancelRun h.1 now run
    exact ⟨coherent_take h.1 now (t := .cancelRun run) trivial, h.2.toWanes.trans hnext.toWanes,
      h.2.frank.trans hnext.frank h.2.toWanes hnext.toWanes, h.2.asks.trans hnext.asks,
      h.2.modest.trans hnext.modest, hnext.mishaps.trans h.2.mishaps⟩
  | served effects => exact absurd rfl (hserved effects)
  | told notice =>
    have h : Orderly "" e (e.note notice) := .note _ _ _
    exact ⟨h.toWanes, h.frank, h.asks, h.modest, rfl⟩

/-! ## Signals -/

/-- An engine no longer waits for a walk that has begun. -/
theorem expects_begun (hc : e.Coherent) {s : Signal} (h : (e.begun run).Expects s) :
    e.Expects s ∧ Signal.walk run ≠ s := by
  refine ⟨h.of_subset (fun _ => id) List.erase_subset (.refl _) (.refl _), ?_⟩
  rintro rfl
  obtain ⟨l, hl⟩ := Option.isSome_iff_exists.1 h.1
  obtain ⟨r, hg, -⟩ := hc.going hl
  have hwalked := hg.walked
  have hmem : 0 < (e.unstarted.erase run).count run := List.count_pos_iff.2 h.2
  have hone : (e.about run).unstarted = e.unstarted.count run := rfl
  rw [List.count_erase_self] at hmem
  split at hwalked <;> omega

/-- An engine no longer waits for a reply that has arrived. -/
theorem expects_answered {ticket : Nat} {s : Signal} (h : (e.answered ticket).Expects s) :
    e.Expects s ∧ Signal.reply ticket ≠ s := by
  refine ⟨h.of_subset (fun _ => id) (.refl _) List.filter_sublist.subset (.refl _), ?_⟩
  rintro rfl
  obtain ⟨entry, hentry, hticket⟩ := List.mem_map.1 h
  have hne := (List.mem_filter.1 hentry).2
  rw [hticket, bne_self_eq_false] at hne
  cases hne

/-- An engine no longer waits for a timer that has fired. -/
theorem expects_rung {number : Nat} {s : Signal} (h : (e.rung number).Expects s) :
    e.Expects s ∧ Signal.timer number ≠ s := by
  refine ⟨h.of_subset (fun _ => id) (.refl _) (.refl _) List.filter_sublist.subset, ?_⟩
  rintro rfl
  obtain ⟨t, ht, hnumber⟩ := List.mem_map.1 h
  have hne := (List.mem_filter.1 ht).2
  rw [hnumber, bne_self_eq_false] at hne
  cases hne

/-- What follows a signal for which the engine waits no longer. -/
theorem Asks.of_signal {mid : Engine} {signal : Signal} (h : Asks mid e')
    (he : mid.effects = e.effects) (hs : ∀ s, mid.Expects s → e.Expects s ∧ signal ≠ s) :
    ∃ added, e'.effects = e.effects ++ added ∧ ∀ s, e'.Expects s →
      (e.Expects s ∧ signal ≠ s) ∨ ∃ x ∈ added, x.signal? = some s := by
  obtain ⟨added, heffects, hexpects⟩ := h
  exact ⟨added, he ▸ heffects, fun s h => (hexpects s h).imp_left (hs s)⟩

/-- **The outside is asked for every signal for which an engine comes to wait, and none is waited
for twice**: a signal that a turn brings is waited for afterwards only if it was asked for anew. -/
theorem asks_take (hc : e.Coherent) (now : Int) {t : Turn} (hs : ¬ t.Starts)
    (hserved : ∀ effects, t ≠ .served effects) :
    ∃ added, (e.take now t).effects = e.effects ++ added ∧ ∀ s, (e.take now t).Expects s →
      (e.Expects s ∧ t.signal? ≠ some s) ∨ ∃ x ∈ added, x.signal? = some s := by
  have hasks := (regular_take hc now hs hserved).asks
  cases t with
  | begin run =>
    simp only [Turn.signal?, ne_eq, Option.some.injEq]
    by_cases hu : run ∈ e.unstarted
    · exact (orderly_begun hc hu now).asks.of_signal rfl fun s => expects_begun hc
    · refine hasks.of_signal rfl fun s hs => ⟨hs, ?_⟩
      rintro rfl
      exact hu hs.2
  | reply ticket reply =>
    simp only [Turn.signal?, ne_eq, Option.some.injEq]
    cases hsd : e.sending.lookup ticket with
    | some sd =>
      exact (orderly_answered hc now hsd reply).asks.of_signal rfl fun s => expects_answered
    | none =>
      refine hasks.of_signal rfl fun s hs => ⟨hs, ?_⟩
      rintro rfl
      obtain ⟨⟨k, sd⟩, hentry, rfl⟩ := List.mem_map.1 hs
      rw [lookup_sending hc.tidy hentry] at hsd
      cases hsd
  | fire timer =>
    simp only [Turn.signal?, ne_eq, Option.some.injEq]
    cases hfind : e.timers.find? timer with
    | some t => exact (orderly_rung hc now hfind).asks.of_signal rfl fun s => expects_rung
    | none =>
      refine hasks.of_signal rfl fun s hs => ⟨hs, ?_⟩
      rintro rfl
      obtain ⟨t, ht, rfl⟩ := List.mem_map.1 hs
      exact absurd (List.find?_eq_none.1 hfind t ht) (by simp)
  | _ =>
    obtain ⟨added, heffects, hexpects⟩ := hasks
    exact ⟨added, heffects, fun s h => (hexpects s h).imp_left fun h => ⟨h, by simp [Turn.signal?]⟩⟩

/-- Live runs become no more, whatever the outside takes up. -/
theorem wanes_take (hc : e.Coherent) (now : Int) {t : Turn} (hs : ¬ t.Starts) :
    Wanes e (e.take now t) := by
  by_cases hserved : ∃ effects, t = .served effects
  · obtain ⟨effects, rfl⟩ := hserved
    exact ⟨fun _ l' hl => ⟨l', hl, rfl, rfl⟩, .refl _, fun _ => id, Nat.le_refl _⟩
  · exact (regular_take hc now hs fun effects heq => hserved ⟨effects, heq⟩).toWanes

/-- **There is never a mishap**: no record is missing, and no status moves where it may not. -/
theorem Reachable.mishaps (h : e.Reachable) : e.mishaps = [] := by
  induction h with
  | idle channel => rfl
  | @take e t now hreach ha ih =>
    rw [← ih]
    cases t with
    | start run flow event =>
      let record : Run := { id := run, flowId := flow.id, startedAt := .utc now }
      let e₀ : Engine := { e with
        runs := e.runs.create record
        live := e.live.put run { flow, event }
        unstarted := e.unstarted ++ [run] }
      have hlog : Orderly run e₀
        (e₀.log now run .info ("Starting run for flow: " ++ flow.name) .null) := orderly_log _ _ _
      refine hlog.mishaps ?_
      simp [e₀, record, RunStore.create, RunStore.get?, OrderedMap.get?_put]
    | served effects => rfl
    | _ => exact (regular_take hreach.coherent now id (by simp)).mishaps

end Engine

end Campaign
