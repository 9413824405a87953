import Campaign.Proofs.Engine.Bounds
import Campaign.Proofs.Engine.Waning
/-!
# No turn adds to what an engine is worth

What a run comes to in a turn it is no longer worth (`worth_add_met_le`), and the timers and
messages for which the outside is asked are paid for by what one run comes to
(`exists_commissions_le`).  The end of a run is told once.  So as long as no run starts, what an
engine wants of the outside and what it can still want only become less (`worth_take`).
-/
namespace Campaign

/-- Walks are worth what their stops are, and themselves. -/
theorem Flow.sum_worth (f : Flow) (walks : List (List Stop)) :
    (walks.map f.worth).sum = 2 * f.work walks.flatten + walks.length := by
  induction walks with
  | nil => rfl
  | cons stops walks ih =>
    rw [List.map_cons, List.sum_cons, ih, List.flatten_cons, work_append, List.length_cons, worth]
    omega

namespace Share

variable {f : Flow} {a b : Share} {l : Live} {stops works : Nat}

/-- What the walks of a run are worth that are still to go on, as long as the run is live. -/
def worth (a : Share) : Nat :=
  match a.live with
  | some l => ((a.duties l.flow).map l.flow.worth).sum
  | none => 0

theorem worth_of_none (h : a.live = none) : a.worth = 0 := by
  simp only [worth, h]

theorem worth_of_live (h : a.live = some l) :
    a.worth = 2 * l.flow.work (a.pending l.flow) + (a.duties l.flow).length := by
  simp only [worth, h, Flow.sum_worth, flatten_duties]

/-- What a live run has spent it is no longer worth. -/
theorem Spends.worth_add_le (h : a.Spends l.flow b stops works) (ha : a.live = some l)
    (hb : ∀ l', b.live = some l' → l'.flow = l.flow) : b.worth + stops ≤ a.worth := by
  have hwork := h.work
  have hduties := h.duties
  rw [worth_of_live ha]
  cases hl : b.live with
  | none =>
    rw [worth_of_none hl]
    omega
  | some l' =>
    rw [worth_of_live hl, hb l' hl]
    omega

end Share

namespace Engine

variable {e : Engine} {now : Int} {run : String} {r : Run} {l : Live} {t : Turn}

theorem worthOf_eq (e : Engine) (run : String) : e.worthOf run = (e.about run).worth := by
  unfold worthOf Share.worth
  rw [show e.live.get? run = (e.about run).live from rfl]
  cases (e.about run).live with
  | none => rfl
  | some l =>
    simp only [List.sum_eq_foldr, List.foldr_map]
    rfl

theorem worth_eq (e : Engine) : e.worth =
    e.effects.length + (e.liveRuns.length + (e.liveRuns.map e.worthOf).sum) := by
  rw [worth]
  congr 1
  induction e.liveRuns with
  | nil => rfl
  | cons run runs ih =>
    rw [List.foldr_cons, ih, List.map_cons, List.sum_cons, List.length_cons]
    omega

/-- **What a run comes to in a turn it is no longer worth.** -/
theorem worth_add_met_le (hc : e.Coherent) (now : Int) (ha : t.Admitted e) (hs : ¬ t.Starts)
    (run : String) : (e.take now t).worthOf run + (e.met run t).length ≤ e.worthOf run := by
  have hwanes := wanes_take hc now hs
  rw [worthOf_eq, worthOf_eq]
  cases hl : (e.about run).live with
  | none =>
    have hnone : ((e.take now t).about run).live = none := hwanes.none hl
    rw [Share.worth_of_none hnone, met_of_none hl]
    exact Nat.zero_le _
  | some l =>
    obtain ⟨r, hg, -⟩ := hc.going hl
    refine (spends_take_of_going hc hg now ha).worth_add_le hl fun l' hl' => ?_
    obtain ⟨l₀, hl₀, hflow, -⟩ := hwanes.live run l' hl'
    obtain rfl : l₀ = l := Option.some.inj (hl₀.symm.trans hl)
    exact hflow

/-! ## Timers and messages -/

/-- A walk that goes on comes to a stop for every timer that it sets and every message that it
sends. -/
theorem commissions_of_departure (d : Departure e now run r l t) :
    (e.take now t).commissions ≤
      e.commissions + (l.flow.tour l.context (e.errand run l.flow t)).1.length := by
  obtain ⟨a⟩ := exists_arrival d.going now (e.errand run l.flow t)
  have harrived := a.commissions
  have hdeparted := d.commissions
  rw [d.flow, d.context] at harrived
  have hopen := (l.flow.tour_spends l.context (e.errand run l.flow t)).1
  simp only [Flow.openings, List.length_append, List.length_map] at hopen
  rw [d.take, a.proceed, d.flow, d.context, commissions_conclude]
  generalize (l.flow.tour l.context (e.errand run l.flow t)).2 = halt at hopen
  cases halt <;> simp only [Flow.kept, List.length_nil, List.length_singleton, reduceIte,
    Bool.false_eq_true] at hopen ⊢ <;> omega

/-- A walk of a run that is live no more sets no timer and sends no message. -/
theorem commissions_of_none (hl : (e.about run).live = none) (hw : t.Works e run) (now : Int) :
    (e.take now t).commissions ≤ e.commissions := by
  have hget : e.live.get? run = none := hl
  cases t with
  | begin s =>
    obtain ⟨rfl, hu⟩ := hw
    simp only [take, begin_eq, if_pos hu, hget]
    exact Nat.le_refl _
  | reply ticket reply =>
    obtain ⟨sd, hsd, rfl⟩ := hw
    have hgone : (e.answered ticket).live.get? sd.run = none := hget
    have hfailed (failure : Failure) :
        Walked sd.run (sd.node.complaint (.fails failure)) [] (e.answered ticket)
          ((e.answered ticket).failNode now sd.run sd.node failure) :=
      walked_failNode now sd.node failure
    simp only [take, reply_eq, hsd, afterReply, hgone]
    split
    · rw [commissions_conclude]
      exact (hfailed _).commissions
    · rw [commissions_conclude]
      exact Nat.le_refl _
    all_goals simp_all
  | fire timer =>
    obtain ⟨t, hfind, rfl⟩ := hw
    simp only [take, fire_eq, hfind, hget]
    exact Nat.le_refl _
  | _ => exact hw.elim

/-- To cancel a run sets no timer and sends no message. -/
theorem commissions_cancelRun (e : Engine) (now : Int) (run : String) :
    (e.cancelRun now run).1.commissions = e.commissions := by
  simp only [cancelRun]
  split
  · exact (commissions_fail _).trans commissions_dropTimers
  · exact commissions_dropTimers

/-- To call off delays sets no timer and sends no message. -/
theorem commissions_cancelDelay (e : Engine) (now : Int) (run node : String) :
    (e.cancelDelay now run node).1.commissions ≤ e.commissions := by
  rw [cancelDelay_eq]
  split
  · have hleft := (walked_undelayed e now run node).commissions
    exact (Nat.le_of_eq (commissions_of_desk desk_complete)).trans hleft
  · exact Nat.le_refl _

/-- The timers and messages of a turn are paid for by what a run comes to. -/
theorem commissions_of_works (hc : e.Coherent) (hw : t.Works e run) (now : Int) :
    (e.take now t).commissions ≤ e.commissions + (e.met run t).length := by
  cases hl : (e.about run).live with
  | none => exact (commissions_of_none hl hw now).trans (Nat.le_add_right _ _)
  | some l =>
    obtain ⟨r, hg, -⟩ := hc.going hl
    rcases exists_departure hc.tidy hg hw now with ⟨⟨d⟩⟩ | ⟨⟨d⟩⟩
    · rw [met_of_live hl]
      exact commissions_of_departure d
    · exact d.commissions.trans (Nat.le_add_right _ _)

/-- **The outside is asked for no more timers and messages than a run comes to stops.** -/
theorem exists_commissions_le (hc : e.Coherent) (now : Int) (hs : ¬ t.Starts) :
    ∃ run, (e.take now t).commissions ≤ e.commissions + (e.met run t).length := by
  by_cases hw : ∃ run, t.Works e run
  · obtain ⟨run, hw⟩ := hw
    exact ⟨run, commissions_of_works hc hw now⟩
  refine ⟨"", Nat.le_trans ?_ (Nat.le_add_right _ _)⟩
  cases t with
  | start run flow event => exact absurd trivial hs
  | begin run =>
    rw [take_begin_of_not_mem fun hu => hw ⟨run, rfl, hu⟩]
  | reply ticket reply =>
    cases hsd : e.sending.lookup ticket with
    | none => rw [take_reply_of_none hsd]
    | some sd => exact absurd ⟨sd.run, sd, hsd, rfl⟩ hw
  | fire timer =>
    cases hfind : e.timers.find? timer with
    | none => rw [take_fire_of_none hfind]
    | some t => exact absurd ⟨t.run, t, hfind, rfl⟩ hw
  | cancelRun run => exact Nat.le_of_eq (commissions_cancelRun e now run)
  | cancelDelay run node => exact commissions_cancelDelay e now run node
  | cancelFlowRuns flowId =>
    refine take_cancelFlowRuns_induction (p := fun e' => e'.commissions ≤ e.commissions)
      (fun e' now run h => ?_) (Nat.le_refl _) now flowId
    exact (Nat.le_of_eq (commissions_cancelRun e' now run)).trans h
  | served effects => exact Nat.le_refl _
  | told notice => exact Nat.le_refl _

/-! ## Engines -/

/-- What is wanted counts by its number. -/
theorem worth_put (e : Engine) (effects : List Effect) :
    ({ e with effects } : Engine).worth + e.effects.length = e.worth + effects.length := by
  have hrest : ({ e with effects } : Engine).worth =
      effects.length + (e.liveRuns.length + (e.liveRuns.map e.worthOf).sum) := worth_eq _
  rw [hrest, worth_eq]
  omega

/-- Fewer runs that are each worth less than they were by what they come to. -/
theorem sum_add_le_sum {runs runs' : List String} (hsub : runs'.Sublist runs) {f g c : String → Nat}
    (h : ∀ s, f s + c s ≤ g s) (hrun : run ∈ runs ∨ c run = 0) :
    (runs'.map f).sum + c run ≤ (runs.map g).sum := by
  have hfewer : (runs'.map f).sum ≤ (runs.map f).sum :=
    (hsub.map f).sum_le_sum fun _ _ => Nat.zero_le _
  have hall : (runs.map fun s => f s + c s).sum ≤ (runs.map g).sum :=
    List.sum_le_sum fun s _ => h s
  have hone : c run ≤ (runs.map c).sum := by
    rcases hrun with hmem | hzero
    · exact List.single_le_sum (fun _ _ => Nat.zero_le _) _ (List.mem_map_of_mem hmem)
    · rw [hzero]
      exact Nat.zero_le _
  rw [List.sum_map_add] at hall
  omega

/-- **No turn adds to what an engine is worth**, unless a run starts or something is put back that
was wanted. -/
theorem worth_take (hc : e.Coherent) (now : Int) (ha : t.Admitted e) (hs : ¬ t.Starts)
    (hserved : ∀ effects, t ≠ .served effects) : (e.take now t).worth ≤ e.worth := by
  have hregular := regular_take hc now hs hserved
  obtain ⟨run, hcommissions⟩ := exists_commissions_le hc now hs
  have hrun : run ∈ e.liveRuns ∨ (e.met run t).length = 0 := by
    cases hl : (e.about run).live with
    | none => exact .inr (by rw [met_of_none hl, List.length_nil])
    | some l => exact .inl (OrderedMap.mem_keys.2 (Option.isSome_iff_exists.2 ⟨l, hl⟩))
  have hsum := sum_add_le_sum hregular.order (worth_add_met_le hc now ha hs) hrun
  have hmodest := hregular.modest
  rw [Modest] at hmodest
  rw [worth_eq, worth_eq]
  omega

end Engine

end Campaign
