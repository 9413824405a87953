import Campaign.Proofs.Engine.Steps
/-!
# Where a run is

The record of a live run shows the nodes at which the run is: those at which a walk of it waits for
a reply, and those whose delays are not over, each once and in order.  Before its walk begins and
when it has ended a run is nowhere.

* `Share.Placed` says that what is held about a run shows where it is; every part of a walk keeps it
  (`placed_walk`), and so does the end of a walk (`placed_conclude`).
* `sited_take` is the step, `Reachable.shows_places` the statement for every reachable engine.
-/
namespace Campaign

theorem pairwise_eraseDups {xs : List String} (h : xs.Pairwise (· ≤ ·)) :
    xs.eraseDups.Pairwise (· < ·) := by
  match xs with
  | [] => exact .nil
  | x :: xs =>
    obtain ⟨hx, hxs⟩ := List.pairwise_cons.1 h
    rw [List.eraseDups_cons]
    refine List.pairwise_cons.2 ⟨fun y hy => ?_, pairwise_eraseDups (hxs.filter _)⟩
    obtain ⟨hmem, hne⟩ := List.mem_filter.1 (List.mem_eraseDups.1 hy)
    exact Std.lt_of_le_of_ne (hx y hmem) (by simpa using Ne.symm (by simpa using hne))
termination_by xs.length
decreasing_by
  exact Nat.lt_succ_of_le (List.length_filter_le _ _)

namespace Live

/-- The nodes at which a run is are shown in order, each once. -/
theorem pairwise_nodes (l : Live) : l.nodes.Pairwise (· < ·) := by
  refine pairwise_eraseDups ?_
  have htrans (a b c : String) (hab : decide (a ≤ b) = true) (hbc : decide (b ≤ c) = true) :
      decide (a ≤ c) = true := by
    simpa using String.le_trans (by simpa using hab) (by simpa using hbc)
  have htotal (a b : String) : (decide (a ≤ b) || decide (b ≤ a)) = true := by
    simpa using String.le_total a b
  simpa using List.pairwise_mergeSort htrans htotal l.occupied

theorem mem_nodes {l : Live} {node : String} : node ∈ l.nodes ↔ node ∈ l.occupied := by
  rw [nodes, List.mem_eraseDups, (List.mergeSort_perm _ _).mem_iff]

end Live

namespace Share

/-- The nodes at which a run is, each as often as it is there: those of its timers, and those at
which its walks wait for replies. -/
def places (a : Share) : List String :=
  a.timers.map Timer.node ++ a.sending.map fun entry => entry.2.node.id

/-- What is held about a run whose walk has begun shows where it is; it is also at the nodes that
are just being visited. -/
structure Placed (visited : List String) (a : Share) : Prop where
  begun : a.unstarted = 0
  shown : ∀ r l, a.record = some r → a.live = some l → r.currentNodes = l.nodes
  occupied : ∀ l, a.live = some l → l.occupied.Perm (visited ++ a.places)
  ended : ∀ r, a.record = some r → a.live = none → r.currentNodes = []
  /-- A timer belongs to the node of its delay. -/
  timers : ∀ t ∈ a.timers, t.node = t.what.node.id

/-- What is held about a run that is nowhere. -/
structure Nowhere (a : Share) : Prop where
  shown : ∀ r, a.record = some r → r.currentNodes = []
  occupied : ∀ l, a.live = some l → l.occupied = []
  timers : a.timers = []
  sending : a.sending = []

/-- What is held about a run shows where it is. -/
inductive Sited (a : Share) : Prop
  | nowhere (h : a.Nowhere)
  | placed (h : a.Placed [])

variable {a b : Share} {r : Run} {l : Live} {visited : List String}

theorem Nowhere.of_unknown (h : a.Unknown) : a.Nowhere where
  shown := by simp [h.record]
  occupied := by simp [h.live]
  timers := h.timers
  sending := h.sending

theorem Nowhere.shows (h : a.Nowhere) (hr : a.record = some r) (hl : a.live = some l) :
    r.currentNodes = l.nodes := by
  simp [h.shown r hr, Live.nodes, h.occupied l hl]

theorem Nowhere.perm (h : a.Nowhere) (hl : a.live = some l) : l.occupied.Perm a.places := by
  simp [h.occupied l hl, places, h.timers, h.sending]

theorem Nowhere.placed (h : a.Nowhere) (hb : a.unstarted = 0) : a.Placed [] where
  begun := hb
  shown := fun _ _ => h.shows
  occupied := fun _ => h.perm
  ended := fun r hr _ => h.shown r hr
  timers := by simp [h.timers]

/-- A run that has ended and shows no nodes is at none, wherever walks may still be. -/
theorem Placed.of_ended (hb : b.unstarted = 0) (hl : b.live = none) (ht : b.timers = [])
    (hr : ∀ r, b.record = some r → r.currentNodes = []) : b.Placed visited where
  begun := hb
  shown := by simp [hl]
  occupied := by simp [hl]
  ended := fun r h _ => hr r h
  timers := by simp [ht]

/-- A run that has ended stays where it is. -/
theorem Sited.of_frozen (h : a.Sited) (hf : a.Frozen b) (hl : a.live = none)
    (ht : a.timers = []) : b.Sited := by
  cases h with
  | nowhere h =>
    refine .nowhere ⟨hf.record ▸ h.shown, hf.live ▸ h.occupied, hf.timers.trans h.timers, ?_⟩
    have hsending := hf.sending
    rwa [h.sending, List.sublist_nil] at hsending
  | placed h =>
    refine .placed (.of_ended ?_ (hf.live.trans hl) (hf.timers.trans ht) fun r hr => ?_)
    · exact Nat.eq_zero_of_le_zero (h.begun ▸ hf.unstarted)
    · exact h.ended r (hf.record ▸ hr) hl

end Share

/-- The node at which a run still is, beside others, when this one has been processed. -/
def Visit.standing (n : Node) : Visit → List String
  | .waits => []
  | _ => [n.id]

/-- The node at which a walk has come to a halt, if the run stays there. -/
def Halt.standing : Halt → List String
  | .sending node _ _ _ => [node.id]
  | _ => []

namespace Engine

variable {e : Engine} {now : Int} {run : String} {r : Run} {l : Live} {origin : Origin}
  {n : Node} {visited visited' : List String}

open Share (Placed Nowhere Sited)

/-! ## Operations -/

theorem placed_log (h : Placed visited (e.about run)) (level : LogLevel) (message : String)
    (payload : Value) : Placed visited ((e.log now run level message payload).about run) := by
  rw [about_log]
  refine ⟨h.begun, fun r l hr hl => ?_, h.occupied, fun r hr hl => ?_, h.timers⟩
  · obtain ⟨r', hr', rfl⟩ := Option.map_eq_some_iff.1 hr
    exact h.shown r' l hr' hl
  · obtain ⟨r', hr', rfl⟩ := Option.map_eq_some_iff.1 hr
    exact h.ended r' hr' hl

/-- What is known of a live run changes, but not where it is. -/
theorem placed_withLive (h : Placed visited (e.about run)) {f : Live → Live}
    (hf : ∀ l, (f l).occupied = l.occupied) :
    Placed visited ((e.withLive run f).about run) := by
  rw [about_withLive]
  refine ⟨h.begun, fun r l hr hl => ?_, fun l hl => ?_, fun r hr hl => ?_, h.timers⟩
  · obtain ⟨l', hl', rfl⟩ := Option.map_eq_some_iff.1 hl
    simpa [Live.nodes, hf] using h.shown r l' hr hl'
  · obtain ⟨l', hl', rfl⟩ := Option.map_eq_some_iff.1 hl
    simpa [Share.places, hf] using h.occupied l' hl'
  · exact h.ended r hr (Option.map_eq_none_iff.1 hl)

/-- A run comes to other nodes, and its record shows them. -/
theorem placed_occupied (h : Placed visited (e.about run)) {f : Live → Live}
    (hf : ∀ l places, l.occupied.Perm (visited ++ places) →
      (f l).occupied.Perm (visited' ++ places)) :
    Placed visited' (((e.withLive run f).showNodes run).about run) := by
  cases hl : (e.about run).live with
  | none =>
    rw [about_showNodes_of_none (by simp [hl]), about_withLive_of_none hl]
    exact ⟨h.begun, h.shown, by simp [hl], h.ended, h.timers⟩
  | some l =>
    rw [about_showNodes (l := f l) (by simp [hl]), about_withLive, hl]
    refine ⟨h.begun, fun r l' hr hl' => ?_, fun l' hl' => ?_, fun r hr hl' => ?_, h.timers⟩
    · obtain ⟨r', -, rfl⟩ := Option.map_eq_some_iff.1 hr
      rw [← Option.some.inj hl']
    · rw [← Option.some.inj hl']
      exact hf l _ (h.occupied l hl)
    · cases hl'

theorem placed_enter (h : Placed visited (e.about run)) (node : String) :
    Placed (node :: visited) ((e.enter run node).about run) :=
  placed_occupied h fun _ _ hp => hp.cons node

theorem placed_leave {node : String} (h : Placed (node :: visited) (e.about run)) :
    Placed visited ((e.leave run node).about run) :=
  placed_occupied h fun l places hp => by simpa using hp.erase node

theorem placed_leaveTimes {node : String} {count : Nat}
    (h : Placed (List.replicate count node ++ visited) (e.about run)) :
    Placed visited ((e.leaveTimes run node count).about run) := by
  induction count generalizing e with
  | zero => exact h
  | succ count ih => exact ih (placed_leave h)

theorem placed_failNode (h : Placed (n.id :: visited) (e.about run)) (failure : Failure) :
    Placed visited ((e.failNode now run n failure).about run) := by
  unfold failNode
  split
  · exact placed_leave (placed_log h _ _ _)
  · exact placed_leave h

/-- A delay begins at a node that is being visited: the run stays there. -/
theorem placed_schedule (c : Continuation) (h : Placed (c.node.id :: visited) (e.about run)) :
    Placed visited
      ({ e with timers := e.timers.schedule run c.node.id c }.about run) := by
  rw [about_schedule]
  refine ⟨h.begun, h.shown, fun l hl => (h.occupied l hl).trans ?_, h.ended, fun t ht => ?_⟩
  · simp only [Share.places, List.map_append, List.map_cons, List.map_nil, List.append_assoc,
      List.cons_append, List.nil_append]
    rw [← List.append_assoc, ← List.append_assoc]
    exact List.perm_middle.symm
  · rcases List.mem_append.1 ht with ht | ht
    · exact h.timers t ht
    · rw [List.mem_singleton.1 ht]

theorem placed_note (h : Placed visited (e.about run)) (n : Notice) :
    Placed visited ((e.note n).about run) := by
  rw [about_note]
  exact ⟨h.begun, h.shown, h.occupied, h.ended, h.timers⟩

/-- A run that is going is nowhere when it has failed. -/
theorem placed_fail {walking : List Origin} (h : (e.about run).Going walking r l)
    (hb : (e.about run).unstarted = 0) (error : String) :
    Placed visited ((e.fail now run error).about run) := by
  rw [about_fail h.record h.not_terminal]
  refine .of_ended hb rfl rfl fun r' hr' => ?_
  rw [← Option.some.inj hr']
  rfl

/-- It is looked whether a run that is going is over; if it is, it is nowhere. -/
theorem placed_complete (hg : (e.about run).Going [] r l) (h : Placed [] (e.about run)) :
    Placed [] ((e.complete now run).about run) := by
  by_cases hbusy : l.walked = false ∨ 0 < l.outstanding
  · rwa [complete_of_busy hg.live hbusy]
  · rw [not_or, Bool.not_eq_false, Int.not_lt] at hbusy
    obtain ⟨-, htm, -, hs⟩ := hg.done hbusy.1 hbusy.2
    rw [about_complete hg.record hg.live hs hbusy.1 hbusy.2]
    refine .of_ended h.begun rfl htm fun r' hr' => ?_
    rw [← Option.some.inj hr']
    rfl

/-! ## Walks -/

theorem placed_visitDelay (h : Placed (n.id :: visited) (e.about run)) (path : List String) :
    Placed ((e.visitDelay now run path n).2.standing n ++ visited)
      ((e.visitDelay now run path n).1.about run) := by
  unfold visitDelay
  split
  · exact placed_log h _ _ _
  · rename_i d _
    have hlog : Placed (n.id :: visited) ((e.log now run .info
        ("Delaying for " ++ d.text ++ " (" ++ toString d.milliseconds ++ "ms)") .null).about run) :=
      placed_log h _ _ _
    have hlive := placed_withLive hlog (f := fun l => { l with outstanding := l.outstanding + 1 })
      fun _ => rfl
    have hnote := placed_note hlive
      { time := now, reporter := .scheduler, message := "Scheduling continuation"
        run := some run, node := some n.id, extra := [("delay_ms", .int d.milliseconds)] }
    exact placed_schedule ⟨n, path⟩ hnote
  · exact h

theorem placed_visit (h : Placed (n.id :: visited) (e.about run)) (context : Value)
    (path : List String) : Placed ((e.visit now run context path n).2.standing n ++ visited)
      ((e.visit now run context path n).1.about run) := by
  unfold visit
  cases n.kind <;> dsimp only
  case trigger => exact h
  case finish => exact placed_log h _ _ _
  case delay => exact placed_visitDelay h path
  case action =>
    unfold visitAction
    split
    · exact placed_log h _ _ _
    · split <;> exact h
    · exact h
  case condition =>
    unfold visitCondition
    split
    · exact placed_log h _ _ _
    · split
      · exact placed_log h _ _ _
      · exact h
    · exact h

/-- A node that is processed within a walk. -/
theorem placed_node (h : Placed [] (e.about run)) {context : Value} {path : List String}
    {e' : Engine} {v : Visit} (hv : ((e.log now run n.announcement.1 n.announcement.2 .null).enter
      run n.id).visit now run context path n = (e', v)) :
    Placed (v.standing n) (e'.about run) := by
  have hlog : Placed [] ((e.log now run n.announcement.1 n.announcement.2 .null).about run) :=
    placed_log h _ _ _
  have hvisit : Placed _ (Prod.fst (Engine.visit _ now run context path n) |>.about run) :=
    placed_visit (placed_enter hlog n.id) context path
  rw [hv, List.append_nil] at hvisit
  exact hvisit

/-- **A walk leaves every node that it comes to**, but for the one at which it waits for a reply and
those at which delays begin. -/
theorem placed_walk (now : Int) (run : String) (flow : Flow) (context : Value) (e : Engine)
    (stops : List Stop) (h : Placed [] (e.about run)) :
    Placed (walk now run flow context e stops).2.standing
      ((walk now run flow context e stops).1.about run) := by
  fun_induction walk now run flow context e stops with
  | case1 => exact h
  | case2 e s rest _ hn ih => exact ih (placed_log h _ _ _)
  | case3 e s rest _ n hn hp ih => exact ih (placed_log h _ _ _)
  | case4 e s rest _ n hn hp path e₁ e₂ way hv ih => exact ih (placed_leave (placed_node h hv))
  | case5 e s rest _ n hn hp path e₁ e₂ hv ih => exact ih (placed_node h hv)
  | case6 e s rest _ n hn hp path e₁ e₂ message hv => exact placed_node h hv
  | case7 e s rest _ n hn hp path e₁ e₂ failure hv =>
    exact placed_failNode (placed_node h hv) failure
  | case8 => exact h

/-- **When a walk of a run that is going has come to a halt**, what follows shows where the run
is. -/
theorem placed_conclude {halt : Halt} (hg : (e.about run).Going [origin] r l)
    (h : Placed halt.standing (e.about run)) (flowId : String) :
    Placed [] ((conclude now run flowId origin (e, halt)).about run) := by
  cases halt with
  | ended =>
    exact placed_complete (going_settle hg) (placed_withLive h fun l => by cases origin <;> rfl)
  | failed failure =>
    have hnote : ((e.note (failureNotice now run flowId failure origin)).about run).Going
        [origin] r l := by
      rwa [about_note_of_not (schedules_failureNotice _ _ _)]
    have hbegun := (placed_note h (failureNotice now run flowId failure origin)).begun
    cases origin with
    | trigger => exact placed_fail hnote hbegun _
    | delay node =>
      exact placed_fail (going_settle hnote) (by rw [about_withLive]; exact hbegun) _
  | sending node path rest message =>
    rw [about_conclude_sending]
    refine ⟨h.begun, h.shown, fun l hl => (h.occupied l hl).trans ?_, h.ended, h.timers⟩
    simpa [Share.places, Halt.standing] using
      (List.perm_append_singleton node.id (e.about run).places).symm

theorem placed_proceed (hg : (e.about run).Going [origin] r l) (h : Placed [] (e.about run))
    (flowId : String) (stops : List Stop) :
    Placed [] ((e.proceed now run flowId origin stops).about run) := by
  rw [proceed_eq hg.live]
  obtain ⟨_, _, hg', _⟩ := hg.walked_of (walked_walk now run l.flow l.context e stops).own
  exact placed_conclude hg' (placed_walk now run l.flow l.context e stops h) flowId

/-! ## Turns -/

theorem placed_begin (h : (e.about run).Going [] r l) (hn : (e.about run).Nowhere)
    (hu : run ∈ e.unstarted) (now : Int) : Placed [] ((e.begin now run).about run) := by
  have hget : e.live.get? run = some l := h.live
  have hg := going_begin h (by simp [unstarted_eq_one h hu])
  have hplaced : Placed [] (((e.begun run).setStatus run .running id).about run) := by
    rw [about_setOut h hu]
    refine Share.Nowhere.placed ⟨fun r' hr' => ?_, hn.occupied, hn.timers, hn.sending⟩ rfl
    rw [← Option.some.inj hr']
    exact hn.shown r h.record
  rw [begin_eq, if_pos hu]
  simp only [hget]
  split
  · exact placed_fail hg hplaced.begun _
  · rename_i trigger _ _
    obtain ⟨_, _, hg', _⟩ := hg.walked_of (walked_log now .info ("Triggered by: " ++ trigger.label)
      (.object [("payload", l.event.wire)])).own
    exact placed_proceed hg' (placed_log hplaced _ _ _) _ _

/-- A walk that is taken up again is at the node that has sent its message. -/
theorem placed_answered (ht : e.desk.Tidy) {ticket : Nat} {sd : Sending}
    (hm : (ticket, sd) ∈ e.sending) (h : Placed [] (e.about sd.run)) :
    Placed [sd.node.id] ((e.answered ticket).about sd.run) := by
  refine ⟨h.begun, h.shown, fun l hl => (h.occupied l hl).trans ?_, h.ended, h.timers⟩
  have hperm := (perm_sending_answered ht hm).map fun entry => entry.2.node.id
  refine (hperm.append_left _).trans ?_
  rw [List.map_cons]
  exact List.perm_middle

theorem placed_reply (ht : e.desk.Tidy) {ticket : Nat} {sd : Sending}
    (hsd : e.sending.lookup ticket = some sd) (hg : (e.about sd.run).Going [] r l)
    (h : Placed [] (e.about sd.run)) (now : Int) (reply : Reply) :
    Placed [] ((e.reply now ticket reply).about sd.run) := by
  have hm := mem_of_lookup_sending hsd
  have hget : (e.answered ticket).live.get? sd.run = some l := hg.live
  have hgoing := going_answered ht hm hg
  have hplaced := placed_answered ht hm h
  have hfailed : ∀ failure, Placed [] ((conclude now sd.run sd.flowId sd.origin
      ((e.answered ticket).failNode now sd.run sd.node failure, .failed failure)).about
        sd.run) := by
    intro failure
    obtain ⟨_, _, hg', _⟩ := hgoing.walked_of (walked_failNode now sd.node failure).own
    have hleft : Placed (Halt.failed failure).standing
        (((e.answered ticket).failNode now sd.run sd.node failure).about sd.run) :=
      placed_failNode hplaced failure
    exact placed_conclude hg' hleft _
  rw [reply_eq]
  simp only [hsd, afterReply, hget]
  cases reply with
  | failed failure => exact hfailed failure
  | declined => exact hfailed _
  | accepted id =>
    obtain ⟨_, _, hg', _⟩ := hgoing.walked_of ((walked_log now .info ("Sent message via " ++
      e.channel) (.object [("result", .object [("ok", .bool true), ("id", .text id)])])).trans
        (walked_leave sd.node.id)).own
    exact placed_proceed hg' (placed_leave (placed_log hplaced _ _ _)) _ _

/-- A delay that is over is a walk at the node of the delay. -/
theorem placed_rung (ht : e.desk.Tidy) {t : Timer Continuation} (hm : t ∈ e.timers.pending)
    (h : Placed [] (e.about t.run)) :
    Placed [t.what.node.id] ((e.rung t.number).about t.run) := by
  have hperm := perm_timers_rung ht hm
  have hnode : t.node = t.what.node.id := h.timers t (hperm.mem_iff.2 List.mem_cons_self)
  refine ⟨h.begun, h.shown, fun l hl => (h.occupied l hl).trans ?_, h.ended, fun u hu => ?_⟩
  · have hmap := (hperm.map Timer.node).append_right
      ((e.about t.run).sending.map fun entry => entry.2.node.id)
    rw [List.map_cons, hnode] at hmap
    exact hmap
  · exact h.timers u (hperm.mem_iff.2 (List.mem_cons_of_mem t hu))

theorem placed_fire (ht : e.desk.Tidy) {number : Nat} {t : Timer Continuation}
    (hfind : e.timers.find? number = some t) (hg : (e.about t.run).Going [] r l)
    (h : Placed [] (e.about t.run)) (now : Int) :
    Placed [] ((e.fire now number).about t.run) := by
  obtain ⟨hm, rfl⟩ := Scheduler.mem_of_find? hfind
  have hget : e.live.get? t.run = some l := hg.live
  rw [fire_eq]
  simp only [hfind, hget]
  obtain ⟨_, _, hg', _⟩ := (going_rung ht hm t.what.node.id hg).walked_of
    ((walked_leave t.what.node.id).trans (walked_log now .info
      ("Delay completed for " ++ t.what.node.label) .null)).own
  exact placed_proceed hg' (placed_log (placed_leave (placed_rung ht hm h)) _ _ _) _ _

/-- Where a run is, when some of its delays have been called off, and where it was for these. -/
theorem perm_places_undelayed (e : Engine) (run node : String) :
    (e.about run).places.Perm (List.replicate (e.timers.countAt run node) node ++
      ((e.undelayed run node).about run).places) := by
  have hdropped : ((e.about run).timers.filter fun t => t.node == node).map Timer.node =
      List.replicate (e.timers.countAt run node) node := by
    refine List.eq_replicate_iff.2 ⟨?_, fun x hx => ?_⟩
    · simp only [about, Scheduler.countAt, Timer.isAt, List.length_map, List.filter_filter,
        List.countP_eq_length_filter, Bool.and_comm]
    · obtain ⟨t, ht, rfl⟩ := List.mem_map.1 hx
      simpa using (List.mem_filter.1 ht).2
  have hkept : (e.about run).timers.filter (fun t => !(t.node == node)) =
      ((e.undelayed run node).about run).timers := by
    simp only [about, undelayed, Scheduler.cancel, List.filter_filter]
    refine List.filter_congr fun t _ => ?_
    cases hrun : t.run == run <;> simp [Timer.isAt, hrun]
  have hperm := (List.filter_append_perm (fun t => t.node == node) (e.about run).timers).symm.map
    Timer.node
  rw [List.map_append, hdropped, hkept] at hperm
  refine (hperm.append_right _).trans ?_
  rw [List.append_assoc]
  exact .refl _

theorem placed_cancelDelay (hg : (e.about run).Going [] r l) (h : Placed [] (e.about run))
    (now : Int) (node : String) : Placed [] ((e.cancelDelay now run node).1.about run) := by
  have hplaced : Placed (List.replicate (e.timers.countAt run node) node ++ [])
      ((e.undelayed run node).about run) := by
    refine ⟨h.begun, h.shown, fun l hl => (h.occupied l hl).trans ?_, h.ended, fun t ht => ?_⟩
    · simpa using perm_places_undelayed e run node
    · refine h.timers t ?_
      simp only [about, undelayed, Scheduler.cancel, List.mem_filter] at ht ⊢
      exact ⟨ht.1.1, ht.2⟩
  rw [cancelDelay_eq]
  split
  · obtain ⟨_, _, hg', _⟩ :=
      (going_undelayed hg node).walked_of (walked_undelayed e now run node).own
    have hcounted := placed_withLive hplaced (f := fun l =>
      { l with outstanding := l.outstanding - e.timers.countAt run node }) fun _ => rfl
    exact placed_complete hg' (placed_log (placed_leaveTimes hcounted) _ _ _)
  · rename_i hnone
    have hzero : e.timers.countAt run node = 0 := by
      simpa [isLive_eq, hg.live] using hnone
    simpa [hzero] using hplaced

/-! ## All that can happen -/

/-- What becomes of a run that is going when it is cancelled. -/
theorem sited_cancelled (h : (e.about run).Sited) :
    Share.Sited { e.about run with record := some (r.failed now cancelled), live := none
                                   timers := [] } := by
  cases h with
  | nowhere h =>
    refine .nowhere ⟨fun r' hr' => ?_, by simp, rfl, h.sending⟩
    rw [← Option.some.inj hr']
    rfl
  | placed h =>
    refine .placed (.of_ended h.begun rfl rfl fun r' hr' => ?_)
    rw [← Option.some.inj hr']
    rfl

theorem sited_start (h : (e.about run).Unknown) (now : Int) (flow : Flow) (event : Event) :
    ((e.start now run flow event).about run).Sited := by
  rw [about_start]
  refine .nowhere ⟨fun r hr => ?_, fun l hl => ?_, h.timers, h.sending⟩
  · rw [← Option.some.inj hr]
    rfl
  · rw [← Option.some.inj hl]

/-- **A turn shows where a run is that is going.** -/
theorem sited_take_of_going (hc : e.Coherent) (hg : (e.about run).Going [] r l)
    (h : (e.about run).Sited) (now : Int) {t : Turn} (ha : t.Admitted e) :
    ((e.take now t).about run).Sited := by
  by_cases hs : t.Concerns e run
  case neg => exact about_take_of_ne hc.tidy now ha hs ▸ h
  cases t with
  | start s flow event =>
    obtain rfl : s = run := hs
    have hnone : (e.about s).record = none := ha
    exact absurd hg.record (by simp [hnone])
  | begin s =>
    obtain rfl : s = run := hs
    simp only [take]
    by_cases hu : s ∈ e.unstarted
    · cases h with
      | nowhere h => exact .placed (placed_begin hg h hu now)
      | placed h => exact absurd h.begun (Nat.ne_of_gt (List.count_pos_iff.2 hu))
    · rwa [begin_eq, if_neg hu]
  | reply ticket reply =>
    obtain ⟨sd, hsd, rfl⟩ := hs
    cases h with
    | nowhere h =>
      have hperm := perm_sending_answered hc.tidy (mem_of_lookup_sending hsd)
      exact absurd (h.sending ▸ hperm).length_eq (by simp)
    | placed h => exact .placed (placed_reply hc.tidy hsd hg h now reply)
  | fire timer =>
    obtain ⟨t, hfind, rfl⟩ := hs
    cases h with
    | nowhere h =>
      have hperm := perm_timers_rung hc.tidy (Scheduler.mem_of_find? hfind).1
      exact absurd (h.timers ▸ hperm).length_eq (by simp)
    | placed h => exact .placed (placed_fire hc.tidy hfind hg h now)
  | cancelRun s =>
    obtain rfl : s = run := hs
    simp only [take]
    rw [about_cancelRun_of_going hg now]
    exact sited_cancelled h
  | cancelDelay s node =>
    obtain rfl : s = run := hs
    cases h with
    | nowhere h =>
      simp only [take]
      rw [about_cancelDelay_of_none h.timers]
      exact .nowhere h
    | placed h => exact .placed (placed_cancelDelay hg h now node)
  | cancelFlowRuns flowId =>
    simp only [take, cancelFlowRuns]
    rw [about_cancelRuns_of_going hg now hs]
    exact sited_cancelled h
  | served effects => exact hs.elim
  | told notice => exact hs.elim

theorem sited_take (hc : e.Coherent) (h : (e.about run).Sited) (now : Int) {t : Turn}
    (ha : t.Admitted e) : ((e.take now t).about run).Sited := by
  rcases hc.phase run with hu | hk
  · by_cases hstart : ∃ flow event, t = .start run flow event
    · obtain ⟨flow, event, rfl⟩ := hstart
      exact sited_start hu now flow event
    · rw [about_take_of_unknown hc.tidy hu now ha fun flow event he => hstart ⟨flow, event, he⟩]
      exact h
  · cases hk with
    | going r l hg => exact sited_take_of_going hc hg h now ha
    | ended r hr hterm hl htm => exact h.of_frozen (frozen_take hc hr hterm now ha) hl htm

theorem Reachable.sited (h : e.Reachable) (run : String) : (e.about run).Sited := by
  induction h with
  | idle channel => exact .nowhere (.of_unknown ⟨rfl, rfl, rfl, rfl, rfl⟩)
  | take now hr ha ih => exact sited_take hr.coherent ih now ha

/-- Whether a walk of a run waits at a node for the reply to its message. -/
def SendsAt (e : Engine) (run node : String) : Prop :=
  ∃ entry ∈ e.sending, entry.2.run = run ∧ entry.2.node.id = node

instance (e : Engine) (run node : String) : Decidable (e.SendsAt run node) :=
  inferInstanceAs (Decidable (∃ entry ∈ e.sending, entry.2.run = run ∧ entry.2.node.id = node))

/-- The nodes at which a run is, in terms of the engine. -/
theorem mem_places {node : String} :
    node ∈ (e.about run).places ↔ e.SendsAt run node ∨ 0 < e.timers.countAt run node := by
  simp only [Share.places, about, SendsAt, Scheduler.countAt, Timer.isAt, List.mem_append,
    List.mem_map, List.mem_filter, List.countP_pos_iff, Bool.and_eq_true, beq_iff_eq, and_assoc]
  exact or_comm

/-- **The record of a run shows where it is.**  As long as a run is live, its record shows, each
once and in order, the nodes at which a walk of it waits for a reply or a timer of it is set; as
long as it is pending, and when it has ended, it shows none. -/
theorem Reachable.shows_places (h : e.Reachable) (hr : e.runs.get? run = some r) :
    (e.isLive run = true → r.currentNodes.Pairwise (· < ·) ∧ ∀ node,
      node ∈ r.currentNodes ↔ e.SendsAt run node ∨ 0 < e.timers.countAt run node) ∧
    (r.status = .pending ∨ r.status.terminal = true → r.currentNodes = []) := by
  have hrec : (e.about run).record = some r := hr
  have hc := h.coherent
  refine ⟨fun hlive => ?_, fun hs => ?_⟩
  · obtain ⟨l, hl⟩ := Option.isSome_iff_exists.1 hlive
    have hshown : r.currentNodes = l.nodes ∧ l.occupied.Perm (e.about run).places := by
      cases h.sited run with
      | nowhere hn => exact ⟨hn.shows hrec hl, hn.perm hl⟩
      | placed hp => exact ⟨hp.shown r l hrec hl, hp.occupied l hl⟩
    rw [hshown.1]
    refine ⟨l.pairwise_nodes, fun node => ?_⟩
    rw [← mem_places, Live.mem_nodes, hshown.2.mem_iff]
  · cases h.sited run with
    | nowhere hn => exact hn.shown r hrec
    | placed hp =>
      refine hp.ended r hrec ?_
      cases hc.known hrec with
      | going r' l hg =>
        obtain rfl : r' = r := Option.some.inj (hg.record.symm.trans hrec)
        have hrunning : r'.status = .running := by rw [hg.status, if_pos hp.begun]
        rw [hrunning] at hs
        exact absurd hs (by decide)
      | ended r' _ _ hl => exact hl

/-- A greeting with its delay and its first message on two branches each. -/
def doubled : Flow :=
  { greeting with
    edges := greeting.edges ++ [⟨"4", "t", "d", none, none⟩, ⟨"5", "t", "a", none, none⟩] }

/-- One of two delays at a node is over and its message is out, and so is another one: the node
with the other delay is still shown; when that delay is called off, it is not. -/
theorem doubled_shows_places :
    let e := Engine.follow { channel := "mail" } [(0, .start "r" doubled order), (1, .begin "r"),
      (2, .reply 0 (.accepted "m")), (3, .fire 0)]
    let e' := e.take 4 (.cancelDelay "r" "d")
    (∃ r, e.runs.get? "r" = some r ∧ r.currentNodes.Pairwise (· < ·) ∧
      "a" ∈ r.currentNodes ∧ "b" ∈ r.currentNodes ∧ "d" ∈ r.currentNodes) ∧
    ∃ r, e'.runs.get? "r" = some r ∧ "b" ∈ r.currentNodes ∧ "d" ∉ r.currentNodes := by
  intro e e'
  have hreach : e.Reachable :=
    (Reachable.idle "mail").follow ⟨rfl, trivial, trivial, trivial, trivial⟩
  have hlater : e'.Reachable := hreach.take 4 trivial
  have hsome : (e.runs.get? "r").isSome = true := by decide +kernel
  have hkept : (e'.runs.get? "r").isSome = true := by decide +kernel
  obtain ⟨r, hr⟩ := Option.isSome_iff_exists.1 hsome
  obtain ⟨after, hafter⟩ := Option.isSome_iff_exists.1 hkept
  obtain ⟨hsorted, hshown⟩ := (Reachable.shows_places hreach hr).1 (by decide +kernel)
  obtain ⟨-, hstays⟩ := (Reachable.shows_places hlater hafter).1 (by decide +kernel)
  refine ⟨⟨r, hr, hsorted, (hshown "a").2 (.inl ?_), (hshown "b").2 (.inl ?_),
    (hshown "d").2 (.inr ?_)⟩, after, hafter, (hstays "b").2 (.inl ?_), mt (hstays "d").1 ?_⟩ <;>
    decide +kernel

end Engine

end Campaign
