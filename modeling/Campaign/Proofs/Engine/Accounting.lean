import Campaign.Proofs.Engine.Frozen
/-!
# The account of outstanding branches

A run counts the delays that were begun and whose branches have not come to their end.  The count is
always right (`outstanding_eq`): it is the number of the run's timers and of its walks behind a
delay that are under way.  A run completes with the very turn after which its first walk has come to
its end and nothing is counted, unless that turn fails it (`completes_iff`); so a live run has
always something left to do (`busy`).

`Reachable.accounting` puts this together.
-/
namespace Campaign.Engine

/-- The status of a run, if it is known. -/
def status? (e : Engine) (run : String) : Option RunStatus := (e.runs.get? run).map Run.status

/-- The walks of a run behind a delay that is over, as long as they are under way. -/
def resumed (e : Engine) (run : String) : Nat :=
  e.sending.countP fun entry => entry.2.run == run && !entry.2.origin.isFirst

/-- The branches of a run that are behind a delay and have not come to their end. -/
def due (e : Engine) (run : String) : Nat := e.timers.count run + e.resumed run

/-- Whether the first walk of a run has come to its end. -/
def Returned (e : Engine) (run : String) : Prop :=
  run ∉ e.unstarted ∧ ∀ entry ∈ e.sending, entry.2.run = run → entry.2.origin.isFirst = false

variable {e : Engine} {now : Int} {run : String} {r : Run} {l : Live}

/-! ## The account in terms of the engine -/

theorem resumed_eq (e : Engine) (run : String) :
    e.resumed run = (e.about run).origins.countP fun o => !o.isFirst := by
  simp only [resumed, Share.origins, about, List.countP_map, List.countP_filter]
  refine List.countP_congr fun entry _ => ?_
  simp [and_comm]

theorem returned_iff (e : Engine) (run : String) : e.Returned run ↔
    (e.about run).unstarted + (e.about run).origins.countP Origin.isFirst = 0 := by
  simp only [Returned, Nat.add_eq_zero_iff, List.countP_eq_zero, Share.origins, about,
    List.count_eq_zero, List.mem_map, List.mem_filter]
  refine and_congr_right fun _ => ⟨?_, ?_⟩
  · rintro h o ⟨entry, ⟨hmem, hrun⟩, rfl⟩
    simpa using h entry hmem (by simpa using hrun)
  · intro h entry hmem hrun
    simpa using h entry.2.origin ⟨entry, ⟨hmem, by simpa using hrun⟩, rfl⟩

theorem status?_eq (e : Engine) (run : String) :
    e.status? run = (e.about run).record.map Run.status := rfl

/-! ## Runs that are going -/

theorem outstanding_eq (h : (e.about run).Going [] r l) : l.outstanding = e.due run := by
  have hout := h.outstanding
  rw [List.append_nil] at hout
  rw [hout, due, count_timers, resumed_eq]
  rfl

theorem walked_iff (h : (e.about run).Going [] r l) : l.walked = true ↔ e.Returned run := by
  have hwalked := h.walked
  rw [List.append_nil] at hwalked
  rw [returned_iff, hwalked]
  cases l.walked <;> simp

/-- Of a live run, the first walk or another branch is under way. -/
theorem busy_of_going (h : (e.about run).Going [] r l) (hbusy : l.walked → 0 < l.outstanding) :
    ¬ (e.Returned run ∧ e.due run = 0) := by
  rintro ⟨hret, hdue⟩
  have := hbusy ((walked_iff h).2 hret)
  rw [outstanding_eq h, hdue] at this
  exact absurd this (by simp)

/-! ## When a run completes -/

/-- A run that has completed has nothing left to do. -/
theorem done_of_completed (h : (e.about run).Known) (hr : (e.about run).record = some r)
    (hs : r.status = .completed) : e.Returned run ∧ e.due run = 0 := by
  have hterm : r.status.terminal := by rw [hs]; rfl
  obtain ⟨_, htm, hc⟩ := h.of_terminal hr hterm
  obtain ⟨hu, hsend⟩ := hc hs
  refine ⟨(returned_iff e run).2 (by simp [hu, Share.origins, hsend]), ?_⟩
  rw [due, count_eq_zero htm, resumed_eq]
  simp [Share.origins, hsend]

/-- Only a live run completes. -/
theorem live_of_completes (h : e.Coherent) {t : Turn} (ha : t.Admitted e)
    (hafter : (e.take now t).status? run = some .completed)
    (hbefore : e.status? run ≠ some .completed) : e.isLive run = true := by
  rw [status?_eq] at hafter hbefore
  rcases h.phase run with hu | hk
  · by_cases hstart : ∃ flow event, t = .start run flow event
    · obtain ⟨flow, event, rfl⟩ := hstart
      rw [take, about_start] at hafter
      simp [Run.logged] at hafter
    · rw [about_take_of_unknown h.tidy hu now ha
        fun flow event he => hstart ⟨flow, event, he⟩] at hafter
      exact absurd hafter hbefore
  · cases hk with
    | going r l hg => simp [isLive_eq, hg.live]
    | ended r hr hterm =>
      rw [(frozen_take h hr hterm now ha).record] at hafter
      exact absurd hafter hbefore

/-- A live run that has nothing left to do after a turn has ended with it. -/
theorem completed_of_done (h : e.Coherent) {t : Turn} (ha : t.Admitted e)
    (hlive : e.isLive run = true) (hret : (e.take now t).Returned run)
    (hdue : (e.take now t).due run = 0) (hf : (e.take now t).status? run ≠ some .failed) :
    (e.take now t).status? run = some .completed := by
  have hk : (e.about run).Known := (h.phase run).resolve_left fun hu => by
    simp [isLive_eq, hu.live] at hlive
  rw [status?_eq] at hf ⊢
  cases known_take h now ha hk with
  | going r l hg hbusy => exact absurd ⟨hret, hdue⟩ (busy_of_going hg hbusy)
  | ended r hr hterm =>
    rw [hr, Option.map_some] at hf ⊢
    cases hs : r.status <;> simp_all [RunStatus.terminal, RunStatus.allowed]

/-- **A run completes exactly with the turn after which nothing is left to do.** -/
theorem completes_iff (h : e.Coherent) (now : Int) {t : Turn} (ha : t.Admitted e) (run : String) :
    ((e.take now t).status? run = some .completed ∧ e.status? run ≠ some .completed) ↔
      e.isLive run = true ∧ (e.take now t).Returned run ∧ (e.take now t).due run = 0 ∧
        (e.take now t).status? run ≠ some .failed := by
  constructor
  · rintro ⟨hafter, hbefore⟩
    obtain ⟨r, hr, hs⟩ := Option.map_eq_some_iff.1 hafter
    have hdone := done_of_completed ((coherent_take h now ha).known hr) hr hs
    exact ⟨live_of_completes h ha hafter hbefore, hdone.1, hdone.2, by simp [hafter]⟩
  · rintro ⟨hlive, hret, hdue, hf⟩
    refine ⟨completed_of_done h ha hlive hret hdue hf, fun hs => ?_⟩
    obtain ⟨r, hr, hs⟩ := Option.map_eq_some_iff.1 hs
    have hterm : r.status.terminal := by rw [hs]; rfl
    have hl := ((h.known hr).of_terminal hr hterm).1
    simp [isLive_eq, hl] at hlive

/-! ## Every reachable engine -/

/-- **The account of outstanding branches.**  The count of a live run is right; a run completes with
the turn after which its first walk is over and nothing is counted, unless that turn fails it; a
live run has something left to do; and a run that has ended has no timers. -/
theorem Reachable.accounting (h : e.Reachable) (run : String) :
    (∀ l, e.live.get? run = some l → l.outstanding = e.timers.count run + e.resumed run) ∧
    (∀ now t, t.Admitted e →
      (((e.take now t).status? run = some .completed ∧ e.status? run ≠ some .completed) ↔
        e.isLive run = true ∧ (e.take now t).Returned run ∧
          (e.take now t).timers.count run + (e.take now t).resumed run = 0 ∧
          (e.take now t).status? run ≠ some .failed)) ∧
    (e.isLive run = true → ¬ e.Returned run ∨ 0 < e.resumed run ∨ 0 < e.timers.count run) ∧
    (∀ r, e.runs.get? run = some r → r.status.terminal → e.timers.count run = 0) := by
  have hc := h.coherent
  refine ⟨fun l hl => ?_, fun now t ha => completes_iff hc now ha run, fun hl => ?_,
    fun r hr hterm => ?_⟩
  · obtain ⟨r, hg, _⟩ := hc.going hl
    simpa [due] using outstanding_eq hg
  · obtain ⟨l, hl⟩ := Option.isSome_iff_exists.1 hl
    obtain ⟨r, hg, hbusy⟩ := hc.going hl
    have hnot := busy_of_going hg hbusy
    by_cases hret : e.Returned run
    · have hdue : e.due run ≠ 0 := fun hd => hnot ⟨hret, hd⟩
      simp only [due] at hdue
      omega
    · exact .inl hret
  · exact count_eq_zero ((hc.known hr).of_terminal hr hterm).2.1

/-- Both walks of a greeting are under way: the delay is over and its message is out. -/
theorem greeting_accounting :
    let e := Engine.follow { channel := "mail" }
      [(0, .start "r" greeting order), (1, .begin "r"), (2, .reply 0 (.accepted "m")), (3, .fire 0)]
    e.isLive "r" = true ∧ e.Returned "r" ∧ e.timers.count "r" = 0 ∧ 0 < e.resumed "r" ∧
      (e.take 4 (.reply 1 (.accepted "n"))).status? "r" = some .completed := by
  intro e
  have hreach : e.Reachable :=
    (Reachable.idle "mail").follow ⟨rfl, trivial, trivial, trivial, trivial⟩
  obtain ⟨-, hcompletes, hbusy, -⟩ := Reachable.accounting hreach "r"
  have hlive : e.isLive "r" = true := by decide +kernel
  have hret : e.Returned "r" := ⟨by decide +kernel, by decide +kernel⟩
  have htimers : e.timers.count "r" = 0 := by decide +kernel
  have hafter := (hcompletes 4 (.reply 1 (.accepted "n")) trivial).2
    ⟨hlive, ⟨by decide +kernel, by decide +kernel⟩, by decide +kernel, by decide +kernel⟩
  refine ⟨hlive, hret, htimers, ?_, hafter.1⟩
  rcases hbusy hlive with h | h | h
  · exact absurd hret h
  · exact h
  · omega

end Campaign.Engine
