import Campaign.Proofs.Engine.Share
import Campaign.Proofs.Engine.Tour
import Campaign.Proofs.Scheduler
/-!
# What a walk can do

`Engine.Walked` says all that processing nodes of a run can do to the engine: entries are added to
the log of the run, it is at other nodes, and delays begin, each with a timer of its own and counted
as outstanding.  The status of the run, its other walks and everything about other runs stay as
they are.  A walk and each of its parts keep to it; what a walk writes and which delays it begins is
told by its tour (`walked_walk`), and so is how it comes to a halt (`halt_walk`).
-/
namespace Campaign

/-- What a walk can do to what is held about its run, which is live: it writes something into the
log, and it begins delays, of each of which the scheduler tells. -/
def Share.Walked (said : List (LogLevel × String)) (delays : List Continuation) (a b : Share) :
    Prop :=
  ∀ r l, a.record = some r → a.live = some l → ∃ entries nodes occupied added notices,
    entries.map LogEntry.said = said ∧ added.map Timer.what = delays ∧
      notices.length = delays.length ∧ b = { a with
        record := some { r with log := r.log ++ entries, currentNodes := nodes }
        live := some { l with outstanding := l.outstanding + added.length, occupied }
        timers := a.timers ++ added
        scheduled := a.scheduled ++ notices }

variable {said said₁ said₂ : List (LogLevel × String)} {delays delays₁ delays₂ : List Continuation}

theorem Share.Walked.refl (a : Share) : a.Walked [] [] a := by
  intro r l hr hl
  refine ⟨[], r.currentNodes, l.occupied, [], [], rfl, rfl, rfl, ?_⟩
  cases a
  simp_all

theorem Share.Walked.trans {a b c : Share} (h₁ : Walked said₁ delays₁ a b)
    (h₂ : Walked said₂ delays₂ b c) : Walked (said₁ ++ said₂) (delays₁ ++ delays₂) a c := by
  intro r l hr hl
  obtain ⟨en₁, no₁, oc₁, ad₁, ns₁, hs₁, hd₁, hn₁, rfl⟩ := h₁ r l hr hl
  obtain ⟨en₂, no₂, oc₂, ad₂, ns₂, hs₂, hd₂, hn₂, rfl⟩ := h₂ _ _ rfl rfl
  refine ⟨en₁ ++ en₂, no₂, oc₂, ad₁ ++ ad₂, ns₁ ++ ns₂, by simp [hs₁, hs₂], by simp [hd₁, hd₂],
    by simp [hn₁, hn₂], ?_⟩
  simp [Int.add_assoc]

namespace Engine

/-- What a walk of a run can do to the engine. -/
structure Walked (run : String) (said : List (LogLevel × String)) (delays : List Continuation)
    (e e' : Engine) : Prop where
  others : ∀ s, s ≠ run → e'.about s = e.about s
  own : Share.Walked said delays (e.about run) (e'.about run)
  sending : e'.sending = e.sending
  tickets : e'.tickets = e.tickets
  requests : e'.desk.requests = e.desk.requests
  commissions : e'.commissions ≤ e.commissions + delays.length
  later : e.timers.Later e'.timers

variable {e e' e'' : Engine} {run : String}

namespace Walked

theorem refl (run : String) (e : Engine) : Walked run [] [] e e :=
  ⟨fun _ _ => rfl, .refl _, rfl, rfl, rfl, Nat.le_refl _, .refl _⟩

theorem trans (h₁ : Walked run said₁ delays₁ e e') (h₂ : Walked run said₂ delays₂ e' e'') :
    Walked run (said₁ ++ said₂) (delays₁ ++ delays₂) e e'' where
  others := fun s hs => (h₂.others s hs).trans (h₁.others s hs)
  own := h₁.own.trans h₂.own
  sending := h₂.sending.trans h₁.sending
  tickets := h₂.tickets.trans h₁.tickets
  requests := h₂.requests.trans h₁.requests
  commissions := by
    have := h₁.commissions
    have := h₂.commissions
    rw [List.length_append]
    omega
  later := h₁.later.trans h₂.later

/-- An operation that leaves the desk alone needs only be looked at for its own run. -/
theorem of_desk (hd : e'.desk = e.desk) (ho : ∀ s, s ≠ run → e'.about s = e.about s)
    (h : Share.Walked said [] (e.about run) (e'.about run)) : Walked run said [] e e' where
  others := ho
  own := h
  sending := congrArg Desk.sending hd
  tickets := congrArg Desk.tickets hd
  requests := congrArg Desk.requests hd
  commissions := Nat.le_of_eq (commissions_of_desk hd)
  later := by
    have ht : e'.timers = e.timers := congrArg Desk.timers hd
    rw [ht]
    exact .refl _

/-- A live run stays live in a walk, and its record stays there. -/
theorem live (h : Walked run said delays e e')
    (ha : (e.about run).record.isSome ∧ (e.about run).live.isSome) :
    (e'.about run).record.isSome ∧ (e'.about run).live.isSome := by
  obtain ⟨r, hr⟩ := Option.isSome_iff_exists.1 ha.1
  obtain ⟨l, hl⟩ := Option.isSome_iff_exists.1 ha.2
  obtain ⟨_, _, _, _, _, -, -, -, hb⟩ := h.own r l hr hl
  simp [hb]

end Walked

theorem walked_log (now : Int) (level : LogLevel) (message : String) (payload : Value) :
    Walked run [(level, message)] [] e (e.log now run level message payload) := by
  refine .of_desk (by simp) (fun s hs => by simp [hs]) fun r l hr hl => ?_
  refine ⟨[⟨.utc now, level, message, payload⟩], r.currentNodes, l.occupied, [], [], rfl, rfl, rfl,
    ?_⟩
  simp [hr, hl, Run.logged]

/-- A live run comes to other nodes. -/
theorem walked_occupied {f : Live → Live}
    (hf : ∀ l, ∃ occupied, f l = { l with occupied }) :
    Walked run [] [] e ((e.withLive run f).showNodes run) := by
  refine .of_desk (by simp) (fun s hs => by simp [hs]) fun r l hr hl => ?_
  obtain ⟨occupied, ho⟩ := hf l
  refine ⟨[], (f l).nodes, occupied, [], [], rfl, rfl, rfl, ?_⟩
  rw [about_occupied hr hl f]
  simp [ho]

theorem walked_enter (node : String) : Walked run [] [] e (e.enter run node) :=
  walked_occupied fun _ => ⟨_, rfl⟩

theorem walked_leave (node : String) : Walked run [] [] e (e.leave run node) :=
  walked_occupied fun _ => ⟨_, rfl⟩

theorem walked_leaveTimes (e : Engine) (run node : String) (n : Nat) :
    Walked run [] [] e (e.leaveTimes run node n) := by
  induction n generalizing e with
  | zero => exact .refl _ _
  | succ n ih => exact (walked_leave node).trans (ih _)

theorem walked_failNode (now : Int) (n : Node) (failure : Failure) :
    Walked run (n.complaint (.fails failure)) [] e (e.failNode now run n failure) := by
  unfold failNode
  split
  · exact (walked_log _ _ _ _).trans (walked_leave _)
  · rename_i hlive
    refine { walked_leave n.id with own := fun r l _ hl => ?_ }
    simp [isLive_eq, hl] at hlive

/-! ## Nodes -/

/-- A delay begins: it is counted as outstanding, and its timer is set. -/
theorem walked_schedule (e : Engine) (c : Continuation) (n : Notice) {effect : Effect}
    (hn : ∀ s, n.schedules s = decide (s = run)) (he : effect.isSend = false) :
    let e' := (e.withLive run fun l => { l with outstanding := l.outstanding + 1 }).note n
    Walked run [] [c] e
      ({ e' with timers := e'.timers.schedule run c.node.id c }.emit effect) := by
  refine ⟨fun s hs => ?_, fun r l hr hl => ?_, rfl, rfl, ?_, ?_, .schedule _ _ _ _⟩
  · rw [about_emit, about_schedule_of_ne hs, about_note_of_not (by simp [hn, hs]),
      about_withLive_of_ne hs]
  · refine ⟨[], r.currentNodes, l.occupied, [⟨e.timers.next, run, c.node.id, c⟩], [n], rfl, rfl,
      rfl, ?_⟩
    rw [about_emit, about_schedule, about_note, about_withLive]
    simp [hr, hl, hn, note, withLive]
  · rw [desk_emit he]
    rfl
  · exact Nat.le_of_eq (Nat.add_right_comm _ _ _)

/-- Processing a node gives its outcome, writes its remarks and begins its delay. -/
theorem visit_eq (e : Engine) (now : Int) (run : String) (context : Value) (path : List String)
    (n : Node) : (e.visit now run context path n).2 = n.outcome context ∧
      Walked run (n.remarks context) ((n.outcome context).delays n path) e
        (e.visit now run context path n).1 := by
  unfold visit Node.outcome Node.remarks
  cases n.kind <;> dsimp only
  case trigger => exact ⟨rfl, .refl _ _⟩
  case finish => exact ⟨rfl, walked_log _ _ _ _⟩
  case action =>
    unfold visitAction
    cases n.parseConfig with
    | error fault => exact ⟨rfl, walked_log _ _ _ _⟩
    | ok config =>
      cases config with
      | action a =>
        dsimp only
        cases compose a context <;> exact ⟨rfl, .refl _ _⟩
      | _ => exact ⟨rfl, .refl _ _⟩
  case condition =>
    unfold visitCondition
    cases n.parseConfig with
    | error fault => exact ⟨rfl, walked_log _ _ _ _⟩
    | ok config =>
      cases config with
      | condition c =>
        dsimp only
        cases c.eval context with
        | ok result => exact ⟨rfl, walked_log _ _ _ _⟩
        | error fault => exact ⟨rfl, .refl _ _⟩
      | _ => exact ⟨rfl, .refl _ _⟩
  case delay =>
    unfold visitDelay
    cases n.parseConfig with
    | error fault => exact ⟨rfl, walked_log _ _ _ _⟩
    | ok config =>
      cases config with
      | delay d =>
        refine ⟨rfl, (walked_log _ _ _ _).trans
          (walked_schedule _ ⟨n, path⟩ _ (fun s => ?_) rfl)⟩
        simp [Notice.schedules, eq_comm]
      | _ => exact ⟨rfl, .refl _ _⟩

/-- A node that is processed within a walk. -/
theorem walked_node (e : Engine) (now : Int) (run : String) (context : Value) (path : List String)
    (n : Node) {e' : Engine} {v : Visit}
    (hv : ((e.log now run n.announcement.1 n.announcement.2 .null).enter run n.id).visit now run
      context path n = (e', v)) :
    n.outcome context = v ∧
      Walked run (n.announcement :: n.remarks context) (v.delays n path) e e' := by
  obtain ⟨hout, hw⟩ := visit_eq ((e.log now run n.announcement.1 n.announcement.2 .null).enter run
    n.id) now run context path n
  rw [hv] at hout hw
  rw [← hout] at hw
  exact ⟨hout.symm, ((walked_log _ _ _ _).trans (walked_enter _)).trans hw⟩

/-- **A walk does nothing but walk**: what it writes and which delays it begins is told by its
tour. -/
theorem walked_walk (now : Int) (run : String) (flow : Flow) (context : Value) (e : Engine)
    (stops : List Stop) :
    Walked run ((flow.tour context stops).1.flatMap (flow.remarks context))
      ((flow.tour context stops).1.flatMap (flow.delays context)) e
      (walk now run flow context e stops).1 := by
  fun_induction walk now run flow context e stops with
  | case1 =>
    rw [Flow.tour_nil]
    exact .refl _ _
  | case2 e s rest _ hn ih =>
    have hs := Flow.processed?_of_none hn
    rw [Flow.tour_leaf hs, Flow.comeTo_fst, List.flatMap_cons, List.flatMap_cons,
      Flow.remarks_of_none hn, Flow.delays_of_none hs]
    exact (walked_log _ _ _ _).trans ih
  | case3 e s rest _ n hn hp ih =>
    have hs := Flow.processed?_of_mem hn hp
    rw [Flow.tour_leaf hs, Flow.comeTo_fst, List.flatMap_cons, List.flatMap_cons,
      Flow.remarks_of_mem hn hp, Flow.delays_of_none hs]
    exact (walked_log _ _ _ _).trans ih
  | case4 e s rest _ n hn hp path e₁ e₂ way hv ih =>
    have hs := Flow.processed?_of_not_mem hn hp
    obtain ⟨hout, hw⟩ := walked_node e now run context path n hv
    rw [Flow.tour_node hs, hout, Flow.comeTo_fst, List.flatMap_cons, List.flatMap_cons,
      Flow.remarks_of_processed hs, Flow.delays_of_processed hs, hout]
    simpa [Node.complaint] using (hw.trans (walked_leave _)).trans ih
  | case5 e s rest _ n hn hp path e₁ e₂ hv ih =>
    have hs := Flow.processed?_of_not_mem hn hp
    obtain ⟨hout, hw⟩ := walked_node e now run context path n hv
    rw [Flow.tour_node hs, hout, Flow.comeTo_fst, List.flatMap_cons, List.flatMap_cons,
      Flow.remarks_of_processed hs, Flow.delays_of_processed hs, hout]
    simpa [Node.complaint] using hw.trans ih
  | case6 e s rest _ n hn hp path e₁ e₂ message hv =>
    have hs := Flow.processed?_of_not_mem hn hp
    obtain ⟨hout, hw⟩ := walked_node e now run context path n hv
    rw [Flow.tour_node hs, hout]
    simpa [Flow.remarks_of_processed hs, Flow.delays_of_processed hs, hout, Node.complaint] using hw
  | case7 e s rest _ n hn hp path e₁ e₂ failure hv =>
    have hs := Flow.processed?_of_not_mem hn hp
    obtain ⟨hout, hw⟩ := walked_node e now run context path n hv
    rw [Flow.tour_node hs, hout]
    simpa [Flow.remarks_of_processed hs, Flow.delays_of_processed hs, hout] using
      hw.trans (walked_failNode now n failure)
  | case8 e s rest hlive =>
    refine { Walked.refl run e with
      own := fun r l _ hl => ?_
      commissions := Nat.le_add_right _ _ }
    simp [isLive_eq, hl] at hlive

/-- **How a walk of a live run comes to a halt is told by its tour.** -/
theorem halt_walk (now : Int) (run : String) (flow : Flow) (context : Value) (e : Engine)
    (stops : List Stop) (h : (e.about run).record.isSome ∧ (e.about run).live.isSome) :
    (walk now run flow context e stops).2 = (flow.tour context stops).2 := by
  fun_induction walk now run flow context e stops with
  | case1 => rw [Flow.tour_nil]
  | case2 e s rest _ hn ih =>
    rw [Flow.tour_leaf (Flow.processed?_of_none hn), Flow.comeTo_snd]
    exact ih ((walked_log _ _ _ _).live h)
  | case3 e s rest _ n hn hp ih =>
    rw [Flow.tour_leaf (Flow.processed?_of_mem hn hp), Flow.comeTo_snd]
    exact ih ((walked_log _ _ _ _).live h)
  | case4 e s rest _ n hn hp path e₁ e₂ way hv ih =>
    obtain ⟨hout, hw⟩ := walked_node e now run context path n hv
    rw [Flow.tour_node (Flow.processed?_of_not_mem hn hp), hout, Flow.comeTo_snd]
    exact ih ((hw.trans (walked_leave n.id)).live h)
  | case5 e s rest _ n hn hp path e₁ e₂ hv ih =>
    obtain ⟨hout, hw⟩ := walked_node e now run context path n hv
    rw [Flow.tour_node (Flow.processed?_of_not_mem hn hp), hout, Flow.comeTo_snd]
    exact ih (hw.live h)
  | case6 e s rest _ n hn hp path e₁ e₂ message hv =>
    obtain ⟨hout, -⟩ := walked_node e now run context path n hv
    rw [Flow.tour_node (Flow.processed?_of_not_mem hn hp), hout]
  | case7 e s rest _ n hn hp path e₁ e₂ failure hv =>
    obtain ⟨hout, -⟩ := walked_node e now run context path n hv
    rw [Flow.tour_node (Flow.processed?_of_not_mem hn hp), hout]
  | case8 e s rest hlive => simp [isLive_eq, h.2] at hlive

end Engine

end Campaign
