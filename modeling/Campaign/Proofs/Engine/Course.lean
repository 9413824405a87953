import Campaign.Proofs.Engine.Frozen
import Mathlib.Data.List.Flatten
/-!
# The course of a run

In every turn a run comes to the stops of one tour at most.  `Share.Turned` says what such a turn
does to the run: the remarks at the stops are written into its log, among asides of the engine, and
what is still to come (`Share.pending`) is what the tour has left of the tree.

* `turned_proceed` is about a walk that goes on: what it has done when it comes to a halt is
  `Toured`, and what is concluded from that depends on the halt.
* `turned_of_failed` is about a run that fails.
-/
namespace Campaign

/-- What the engine writes into the log of a run beside the remarks at stops. -/
inductive Aside : LogLevel × String → Prop
  | started (name : String) : Aside (.info, "Starting run for flow: " ++ name)
  | triggered (label : String) : Aside (.info, "Triggered by: " ++ label)
  | sent (channel : String) : Aside (.info, "Sent message via " ++ channel)
  | resumed (label : String) : Aside (.info, "Delay completed for " ++ label)
  | cancelled (node : String) : Aside (.warn, "Delay cancelled for node " ++ node)
  | erred (label text : String) : Aside (.error, "Error in node " ++ label ++ ": " ++ text)
  | completed : Aside (.info, "Run completed successfully")
  | failed (error : String) : Aside (.error, "Run failed: " ++ error)

/-- How far a tree is explored, whatever the positions are. -/
def Explored (f : Flow) (context : Value) (met rest : List Stop) (whole : Prop) : Prop :=
  ∃ done opened, Ledger f context met rest done opened whole

namespace Share

/-- The stops that a run has still to come to. -/
def pending (f : Flow) (a : Share) : List Stop :=
  (List.replicate a.unstarted f.roots).flatten ++
    (a.sending.flatMap (fun entry => f.after entry.2) ++
      (a.timers.map Timer.what).flatMap f.beyond)

/-- The walks of a run that are still to go on, each with the stops from which it will. -/
def duties (f : Flow) (a : Share) : List (List Stop) :=
  List.replicate a.unstarted f.roots ++
    (a.sending.map (fun entry => f.after entry.2) ++ a.timers.map fun t => f.beyond t.what)

theorem flatten_duties (f : Flow) (a : Share) : (a.duties f).flatten = a.pending f := by
  simp only [duties, pending, List.flatten_append, List.flatMap, List.map_map]
  rfl

/-- What a turn does to a run in which the run comes to some stops: from the record `r` to `r'`.
The run fails in a calm turn never, and else with an error for which there is a ground. -/
structure Turned (f : Flow) (context : Value) (met : List Stop) (kept calm : Prop)
    (ground : String → Prop) (r r' : Run) (a b : Share) : Prop where
  record : b.record = some r'
  live : ∀ l, b.live = some l → l.flow = f ∧ l.context = context
  /-- The tree is explored, unless something of it is given up. -/
  explored : ∀ before whole, Explored f context before (a.pending f) whole →
    Explored f context (before ++ met) (b.pending f) (whole ∧ kept ∧ r'.status ≠ .failed)
  sayings : ∃ opening closing,
    r'.sayings = r.sayings ++ (opening ++ met.flatMap (f.remarks context) ++ closing) ∧
      (∀ x ∈ opening ++ closing, Aside x) ∧ (calm → ∀ x ∈ opening ++ closing, x.1 = .info)
  calm : calm → r'.status ≠ .failed
  error : ∀ error, r'.error = some error → ground error
  fails : ∀ s ∈ met, ∀ failure, f.FailsAt context s failure → r'.status = .failed

variable {f : Flow} {context : Value} {met stops : List Stop} {kept calm : Prop}
  {ground : String → Prop} {r r' : Run} {a b : Share} {said : List (LogLevel × String)}
  {delays : List Continuation}

/-- A walk has the delays still to come that it begins. -/
theorem Walked.pending {l : Live} (h : Walked said delays a b) (hr : a.record = some r)
    (hl : a.live = some l) (f : Flow) : b.pending f = a.pending f ++ delays.flatMap f.beyond := by
  obtain ⟨entries, nodes, occupied, added, notices, -, rfl, -, rfl⟩ := h r l hr hl
  simp [Share.pending]

/-- Walks and delays that end are no longer to go on. -/
theorem duties_sublist (hu : b.unstarted ≤ a.unstarted) (hs : b.sending.Sublist a.sending)
    (ht : b.timers.Sublist a.timers) (f : Flow) : (b.duties f).Sublist (a.duties f) :=
  .append ((List.replicate_sublist_replicate _).2 hu) (.append (hs.map _) (ht.map _))

/-- The end of a run leaves its walks that wait for replies. -/
theorem duties_broken (f : Flow) (a : Share) (record : Option Run) :
    (duties f { a with record, live := none, timers := [] }).Sublist (a.duties f) := by
  refine duties_sublist ?_ ?_ ?_ f
  · exact Nat.le_refl _
  · exact .refl _
  · exact List.nil_sublist _

/-- What is still to come grows less as walks and delays end. -/
theorem pending_sublist (hu : b.unstarted ≤ a.unstarted) (hs : b.sending.Sublist a.sending)
    (ht : b.timers.Sublist a.timers) (f : Flow) : (b.pending f).Sublist (a.pending f) := by
  rw [← flatten_duties, ← flatten_duties]
  exact (duties_sublist hu hs ht f).flatten

theorem pending_broken (f : Flow) (a : Share) (record : Option Run) :
    (pending f { a with record, live := none, timers := [] }).Sublist (a.pending f) := by
  rw [← flatten_duties, ← flatten_duties]
  exact (duties_broken f a record).flatten

/-- A walk that comes to wait for a reply keeps what it has still to come to. -/
theorem pending_sending (f : Flow) (a : Share) (entry : Nat × Sending) :
    (pending f { a with sending := a.sending ++ [entry] }).Perm
      (f.after entry.2 ++ a.pending f) := by
  simp only [pending, List.flatMap_append, List.flatMap_cons, List.flatMap_nil, List.append_nil]
  rw [List.append_assoc]
  refine (List.Perm.append_left _ (perm_left_comm _ _ _)).trans ?_
  exact perm_left_comm _ _ _

/-- A run that fails gives up what is still to come. -/
theorem turned_of_failed (hr : b.record = some r') (hl : b.live = none) (hs : r'.status = .failed)
    (hc : ¬ calm) (herr : ∀ error, r'.error = some error → ground error)
    (hsay : ∃ opening closing,
      r'.sayings = r.sayings ++ (opening ++ met.flatMap (f.remarks context) ++ closing) ∧
        ∀ x ∈ opening ++ closing, Aside x)
    (hexp : ∀ before whole, Explored f context before (a.pending f) whole →
      ∃ rest whole', Explored f context (before ++ met) rest whole' ∧
        (b.pending f).Subperm rest) :
    Turned f context met kept calm ground r r' a b where
  record := hr
  live := by simp [hl]
  explored := by
    intro before whole h
    obtain ⟨rest, whole', ⟨done, opened, h⟩, hsub⟩ := hexp before whole h
    have hgiven : ¬ (whole ∧ kept ∧ r'.status ≠ .failed) := fun h => h.2.2 hs
    obtain ⟨opened', h⟩ := h.drop hsub hgiven
    exact ⟨done, opened', h⟩
  sayings := by
    obtain ⟨opening, closing, hsay, haside⟩ := hsay
    exact ⟨opening, closing, hsay, haside, fun h => absurd h hc⟩
  calm := fun h => absurd h hc
  error := herr
  fails := fun _ _ _ _ => hs

/-- A run that fails without coming to any stop. -/
theorem turned_of_failed_at_once (hr : b.record = some r') (hl : b.live = none)
    (hs : r'.status = .failed) (hc : ¬ calm) (herr : ∀ error, r'.error = some error → ground error)
    (hsay : r'.sayings = r.sayings ++ said) (hsaid : ∀ x ∈ said, Aside x)
    (hp : (b.pending f).Subperm (a.pending f)) :
    Turned f context [] kept calm ground r r' a b := by
  refine turned_of_failed hr hl hs hc herr
    ⟨[], said, by simpa using hsay, by simpa using hsaid⟩ ?_
  exact fun before whole h => ⟨_, whole, by simpa using h, hp⟩

end Share

namespace Engine

variable {e : Engine} {now : Int} {run : String} {f : Flow} {context : Value} {stops : List Stop}
  {kept calm : Prop} {ground : String → Prop} {r r₁ : Run} {l₁ : Live} {a : Share}
  {origin : Origin}

/-- What it does to the course of a run to look whether it is over. -/
theorem turned_complete {l : Live} {met : List Stop} (h : (e.about run).Going [] r₁ l)
    (ht : a.Turned f context met kept calm ground r r₁ (e.about run)) (now : Int) :
    ∃ r', a.Turned f context met kept calm ground r r' ((e.complete now run).about run) := by
  rcases about_complete_of_going h now with heq | heq
  · exact ⟨r₁, heq ▸ ht⟩
  · rw [heq]
    obtain ⟨opening, closing, hsay, haside, hcalm⟩ := ht.sayings
    have hlast : (r₁.completed now).sayings =
        r₁.sayings ++ [(.info, "Run completed successfully")] := by
      simp [Run.sayings, Run.completed, Run.logged, LogEntry.said]
    refine ⟨r₁.completed now, rfl, by simp, fun before whole hb => ?_, ⟨opening,
      closing ++ [(.info, "Run completed successfully")], ?_, ?_, ?_⟩, ?_, ht.error, ?_⟩
    · obtain ⟨done, opened, hled⟩ := ht.explored before whole hb
      exact ⟨done, opened, hled.mono fun hw => ⟨hw.1, hw.2.1, h.not_failed⟩⟩
    · rw [hlast, hsay]
      simp
    · intro x hx
      rw [← List.append_assoc, List.mem_append, List.mem_singleton] at hx
      rcases hx with hx | rfl
      · exact haside x hx
      · exact .completed
    · intro hc x hx
      rw [← List.append_assoc, List.mem_append, List.mem_singleton] at hx
      rcases hx with hx | rfl
      · exact hcalm hc x hx
      · rfl
    · intro hc
      simp [Run.completed]
    · intro s hs failure hfail
      exact absurd (ht.fails s hs failure hfail) h.not_failed

theorem settle_flow (origin : Origin) (l : Live) : (Origin.settle origin l).flow = l.flow := by
  cases origin <;> rfl

theorem settle_context (origin : Origin) (l : Live) :
    (Origin.settle origin l).context = l.context := by
  cases origin <;> rfl

/-- What is held about a run that is going when a walk of it has failed. -/
theorem about_conclude_failed (h : (e.about run).Going [origin] r₁ l₁) (now : Int)
    (flowId : String) (failure : Failure) :
    (conclude now run flowId origin (e, .failed failure)).about run = { e.about run with
      record := some (r₁.failed now failure.reason), live := none, timers := [] } := by
  have hnote : (e.note (failureNotice now run flowId failure origin)).about run = e.about run :=
    about_note_of_not (schedules_failureNotice _ _ _)
  cases origin with
  | trigger =>
    simp only [conclude]
    rw [about_fail (by rw [hnote, h.record]) h.not_terminal, hnote]
  | delay node =>
    simp only [conclude]
    rw [about_fail (r := r₁) (by rw [about_withLive, hnote, h.record]) h.not_terminal,
      about_withLive, hnote]

theorem sayings_failed (r : Run) (now : Int) (error : String) :
    (r.failed now error).sayings = r.sayings ++ [(.error, "Run failed: " ++ error)] := by
  simp [Run.sayings, Run.failed, Run.logged, LogEntry.said]

theorem ground_of_failed {error : String} (h : ground error) (r : Run) (now : Int) :
    ∀ x, (r.failed now error).error = some x → ground x := by
  intro x hx
  obtain rfl : error = x := Option.some.inj hx
  exact h

/-- A run that is going has not failed, on whatever ground. -/
theorem ground_of_going {walking : List Origin} {l : Live} (h : a.Going walking r l) :
    ∀ x, r.error = some x → ground x := by
  intro x hx
  rw [h.error] at hx
  cases hx

/-- A tour explores the tree, whatever else is open. -/
theorem explored_tour {met others : List Stop} {whole : Prop}
    (h : Explored f context met (stops ++ others) whole) :
    Explored f context (met ++ (f.tour context stops).1)
      (f.leavings context (f.tour context stops) ++ others)
      (whole ∧ (f.tour context stops).2.isFailed = false) := by
  obtain ⟨done, opened, h⟩ := h
  obtain ⟨done', opened', h⟩ := h.tour
  exact ⟨done ++ done', opened', h⟩

/-- What a walk does to a run, from the record `r` to `r'`, before anything is concluded from its
halt. -/
structure Toured (f : Flow) (context : Value) (met : List Stop) (opening : LogLevel × String)
    (halt : Halt) (r r' : Run) (a b : Share) : Prop where
  explored : ∀ before whole, Explored f context before (a.pending f) whole →
    Explored f context (before ++ met) (f.left halt ++ b.pending f)
      (whole ∧ halt.isFailed = false)
  sayings : r'.sayings = r.sayings ++ ([opening] ++ met.flatMap (f.remarks context))
  fails : ∀ s ∈ met, ∀ failure, f.FailsAt context s failure → halt = .failed failure

/-- A walk that does not fail leaves its run going. -/
theorem Toured.turned {met : List Stop} {opening : LogLevel × String} {halt : Halt} {b c : Share}
    {l : Live} (h : Toured f context met opening halt r r₁ a b) (hh : halt.isFailed = false)
    (ho : Aside opening) (hinfo : opening.1 = .info) (hg : c.Going [] r₁ l)
    (hl : l.flow = f ∧ l.context = context)
    (hp : (f.left halt ++ b.pending f).Perm (c.pending f)) :
    a.Turned f context met kept calm ground r r₁ c where
  record := hg.record
  live := by
    intro l' hl'
    obtain rfl : l = l' := Option.some.inj (hg.live.symm.trans hl')
    exact hl
  explored := by
    intro before whole hb
    obtain ⟨done, opened, hled⟩ := h.explored before whole hb
    exact ⟨done, opened, (hled.mono fun hw => ⟨hw.1, hh⟩).perm hp⟩
  sayings := by
    refine ⟨[opening], [], ?_, by simpa using ho, by simpa using fun _ => hinfo⟩
    rw [h.sayings, List.append_nil]
  calm := fun _ => hg.not_failed
  error := ground_of_going hg
  fails := by
    intro s hs failure hfail
    rw [h.fails s hs failure hfail] at hh
    cases hh

/-- What a walk does that sets out from some stops of a run. -/
theorem toured_walk {opening : LogLevel × String} (hg : (e.about run).Going [origin] r₁ l₁)
    (hf : l₁.flow = f) (hcon : l₁.context = context) (hsay : r₁.sayings = r.sayings ++ [opening])
    (hp : (a.pending f).Perm (stops ++ (e.about run).pending f)) (now : Int) :
    ∃ r₂ l₂, ((walk now run f context e stops).1.about run).Going [origin] r₂ l₂ ∧
      (l₂.flow = f ∧ l₂.context = context) ∧
      Toured f context (f.tour context stops).1 opening (f.tour context stops).2 r r₂ a
        ((walk now run f context e stops).1.about run) := by
  have hw := walked_walk now run f context e stops
  have hpend := hw.own.pending hg.record hg.live f
  obtain ⟨r₂, l₂, hg₂, hsay₂, hflow, hevent⟩ := hg.walked_of hw.own
  refine ⟨r₂, l₂, hg₂, ⟨hflow.trans hf, ?_⟩, ?_, ?_, ?_⟩
  · rw [← hcon, Live.context, Live.context, hevent]
  · rintro before whole ⟨done, opened, h⟩
    obtain ⟨done, opened, h⟩ := explored_tour ⟨done, opened, h.perm hp⟩
    refine ⟨done, opened, h.perm ?_⟩
    rw [Flow.leavings, hpend, List.append_assoc, ← List.append_assoc (f.left _)]
    exact List.perm_append_comm
  · rw [hsay₂, hsay, List.append_assoc]
  · intro s hs failure hfail
    exact Flow.tour_failed_iff.2 ⟨s, hs, hfail⟩

/-- A walk that fails makes its run fail. -/
theorem turned_conclude_failed {met : List Stop} {opening : LogLevel × String} {failure : Failure}
    (hg : (e.about run).Going [origin] r₁ l₁)
    (h : Toured f context met opening (.failed failure) r r₁ a (e.about run))
    (ho : Aside opening) (hc : ¬ calm) (hground : ground failure.reason) (now : Int)
    (flowId : String) : ∃ r', a.Turned f context met kept calm ground r r'
      ((conclude now run flowId origin (e, .failed failure)).about run) := by
  rw [about_conclude_failed hg]
  refine ⟨_, Share.turned_of_failed rfl rfl rfl hc (ground_of_failed hground _ _)
    ⟨[opening], [(.error, "Run failed: " ++ failure.reason)], ?_, ?_⟩
    fun before whole hb => ⟨_, _, h.explored before whole hb, ?_⟩⟩
  · rw [sayings_failed, h.sayings, List.append_assoc]
  · simpa using ⟨ho, .failed _⟩
  · refine (Share.pending_broken f (e.about run) _).subperm.trans ?_
    exact (List.sublist_append_right _ _).subperm

/-- **What a walk that goes on does to its run.** -/
theorem turned_proceed {opening : LogLevel × String}
    (hg : (e.about run).Going [origin] r₁ l₁) (hf : l₁.flow = f) (hcon : l₁.context = context)
    (hsay : r₁.sayings = r.sayings ++ [opening]) (ho : Aside opening) (hinfo : opening.1 = .info)
    (hp : (a.pending f).Perm (stops ++ (e.about run).pending f))
    (hcalm : calm → (f.tour context stops).2.isFailed = false)
    (hground : ∀ failure, (f.tour context stops).2 = .failed failure → ground failure.reason)
    (now : Int) (flowId : String) :
    ∃ r', a.Turned f context (f.tour context stops).1 kept calm ground r r'
      ((e.proceed now run flowId origin stops).about run) := by
  rw [proceed_eq hg.live, hf, hcon]
  have hhalt := halt_walk now run f context e stops ⟨by simp [hg.record], by simp [hg.live]⟩
  obtain ⟨r₂, l₂, hg₂, hl₂, htoured⟩ := toured_walk hg hf hcon hsay hp now
  generalize walk now run f context e stops = res at *
  obtain ⟨e', halt⟩ := res
  simp only at hhalt hg₂ htoured
  rw [← hhalt] at htoured hcalm hground
  cases halt with
  | ended =>
    refine turned_complete (going_settle hg₂) (htoured.turned rfl ho hinfo (going_settle hg₂)
      ⟨(settle_flow origin l₂).trans hl₂.1, (settle_context origin l₂).trans hl₂.2⟩ ?_) now
    rw [about_withLive]
    exact .refl _
  | failed failure =>
    refine turned_conclude_failed hg₂ htoured ho (fun hc => ?_) (hground failure rfl) now flowId
    cases hcalm hc
  | sending node path rest message =>
    refine ⟨r₂, htoured.turned rfl ho hinfo
      (going_sending hg₂ now flowId node path rest message) hl₂ ?_⟩
    rw [about_conclude_sending]
    exact (Share.pending_sending f (e'.about run)
      (e'.tickets, ⟨run, flowId, origin, node, path, rest, message⟩)).symm

end Engine

end Campaign
