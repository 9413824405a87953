import Campaign.Proofs.Engine.Errands
import Campaign.Proofs.Engine.Lookups
/-!
# The turns of a run that is going

In a turn the engine sets out with some stops of a run (`Engine.errand`) and comes to those on the
tour from there (`Engine.met`).  `turned_take` says for every turn what it does to a run that is
going: it explores the tree of the run further (`Share.Turned`).

* `Turn.Keeps` says that a turn calls off no delay of a run;
* `Engine.Calm` says that a turn does not make a run fail.
* `Ground` are the errors with which a run can fail.
-/
namespace Campaign

/-- Whether a turn leaves the delays of a run alone. -/
def Turn.Keeps (e : Engine) (run : String) : Turn → Prop
  | .cancelDelay s node => s = run → e.timers.countAt run node = 0
  | _ => True

/-- Whether nobody cancels a run in a turn, and its messages are accepted. -/
def Turn.Kind (e : Engine) (run : String) : Turn → Prop
  | .reply ticket r =>
    ∀ sd, e.sending.lookup ticket = some sd → sd.run = run → ∃ id, r = .accepted id
  | .cancelRun s | .cancelDelay s _ => s ≠ run
  | .cancelFlowRuns flowId => run ∉ e.liveRunsOf flowId
  | _ => True

/-- Whether a turn brings a failure in reply to a message of a run. -/
def Turn.Tells (e : Engine) (run : String) (failure : Failure) : Turn → Prop
  | .reply ticket r =>
    r = .failed failure ∧ ∃ sd, e.sending.lookup ticket = some sd ∧ sd.run = run
  | _ => False

/-- The errors with which a run of a flow can fail when it is told of some failures. -/
inductive Ground (f : Flow) (told : Failure → Prop) : String → Prop
  /-- There is nowhere to begin. -/
  | untriggered : f.triggers = [] → Ground f told "No TRIGGER node found"
  /-- A look-up is faulty. -/
  | faulty (fault : PathFault) : Ground f told (Failure.value fault.message).reason
  /-- A message is not sent. -/
  | raised (failure : Failure) : told failure → Ground f told failure.reason
  /-- A message is not accepted. -/
  | declined (recipient : String) : Ground f told
      (Failure.send ("Message send to " ++ recipient ++ " was not accepted")).reason
  | cancelled : Ground f told Engine.cancelled

theorem Ground.mono {f : Flow} {told told' : Failure → Prop} {error : String}
    (h : Ground f told error) (ht : ∀ failure, told failure → told' failure) :
    Ground f told' error := by
  cases h with
  | untriggered hnone => exact .untriggered hnone
  | faulty fault => exact .faulty fault
  | raised failure hf => exact .raised failure (ht failure hf)
  | declined recipient => exact .declined recipient
  | cancelled => exact .cancelled

/-- A walk that fails has a ground for it. -/
theorem ground_of_tour {f g : Flow} {context : Value} {stops : List Stop} {failure : Failure}
    (h : (f.tour context stops).2 = .failed failure) (told : Failure → Prop) :
    Ground g told failure.reason := by
  obtain ⟨s, -, n, -, ho⟩ := Flow.tour_failed_iff.1 h
  obtain ⟨fault, rfl⟩ := Node.exists_fault_of_fails ho
  exact .faulty fault

namespace Engine

/-- Whether a run can fail in a turn neither from within nor from without. -/
def Calm (e : Engine) (run : String) (l : Live) (t : Turn) : Prop :=
  t.Kind e run ∧ l.flow.triggers ≠ [] ∧
    (l.flow.tour l.context (e.errand run l.flow t)).2.isFailed = false

variable {e : Engine} {now : Int} {run : String} {r : Run} {l : Live}

/-- Nothing happens to a run in a turn that is not about it. -/
theorem turned_of_eq {a b : Share} {kept calm : Prop} {ground : String → Prop}
    (hg : a.Going [] r l) (h : b = a) :
    a.Turned l.flow l.context [] kept calm ground r r b := by
  subst h
  refine ⟨hg.record, ?_, ?_, ⟨[], [], by simp, by simp, by simp⟩, fun _ => hg.not_failed,
    ground_of_going hg, by simp⟩
  · intro l' hl'
    obtain rfl : l = l' := Option.some.inj (hg.live.symm.trans hl')
    exact ⟨rfl, rfl⟩
  · rintro before whole ⟨done, opened, h⟩
    exact ⟨done, opened, by simpa using h.mono And.left⟩

/-! ## Walks that go on -/

/-- What a turn does to a run that lets a walk of it go on. -/
theorem turned_departure {kept calm : Prop} {t : Turn} (d : Departure e now run r l t)
    (hcalm : calm → (l.flow.tour l.context (e.errand run l.flow t)).2.isFailed = false)
    (told : Failure → Prop) :
    ∃ r', (e.about run).Turned l.flow l.context
      (l.flow.tour l.context (e.errand run l.flow t)).1 kept calm (Ground l.flow told) r r'
        ((e.take now t).about run) := by
  rw [d.take]
  refine turned_proceed d.going d.flow d.context d.sayings d.aside d.calm ?_ hcalm
    (fun _ hf => ground_of_tour hf told) _ _
  rw [← Share.flatten_duties, ← Share.flatten_duties]
  exact d.duties.flatten

/-- What a turn does to a run that makes it fail before it comes to any stop. -/
theorem turned_forsaken {kept calm : Prop} {t : Turn} (d : Forsaken e now run r l t)
    (hc : ¬ calm) {ground : String → Prop} (hground : ground d.error) :
    ∃ r', (e.about run).Turned l.flow l.context [] kept calm ground r r'
      ((e.take now t).about run) := by
  have hsay : (d.record.failed now d.error).sayings =
      r.sayings ++ (d.said ++ [(.error, "Run failed: " ++ d.error)]) := by
    rw [sayings_failed, d.sayings, List.append_assoc]
  rw [d.about]
  refine ⟨_, Share.turned_of_failed_at_once rfl rfl rfl hc (ground_of_failed hground _ _) hsay ?_
    ?_⟩
  · intro x hx
    rcases List.mem_append.1 hx with hx | hx
    · exact d.reason.aside x hx
    · exact List.mem_singleton.1 hx ▸ .failed d.error
  · have hperm := d.duties.flatten
    rw [Share.flatten_duties, List.flatten_cons, Share.flatten_duties] at hperm
    refine (Share.pending_broken _ _ _).subperm.trans ?_
    exact ((List.sublist_append_right _ _).subperm).trans hperm.symm.subperm

/-- A run that is forsaken has a ground to fail. -/
theorem Forsaking.ground {f : Flow} {t : Turn} {error : String} {said : List (LogLevel × String)}
    (h : Forsaking e run f t error said) : Ground f (fun failure => t.Tells e run failure)
      error := by
  cases h with
  | untriggered hnone => exact .untriggered hnone
  | @rejected ticket reply sd failure hsd hrun hfailure =>
    cases reply with
    | accepted id => cases hfailure
    | declined =>
      cases hfailure
      exact .declined sd.message.recipient
    | failed failure' =>
      cases hfailure
      exact .raised failure ⟨rfl, sd, hsd, hrun⟩

/-- A run is not forsaken in a calm turn. -/
theorem Forsaking.not_calm {t : Turn} {error : String} {said : List (LogLevel × String)}
    (h : Forsaking e run l.flow t error said) : ¬ e.Calm run l t := by
  rintro ⟨hkind, htriggers, -⟩
  cases h with
  | untriggered hnone => exact htriggers hnone
  | @rejected ticket reply sd failure hsd hrun hfailure =>
    obtain ⟨id, rfl⟩ := hkind sd hsd hrun
    cases hfailure

/-! ## Cancellation -/

/-- A run that is cancelled gives up what is still to come. -/
theorem turned_cancelled {kept calm : Prop} {b : Share} (hc : ¬ calm) (now : Int)
    (hb : b = { e.about run with
      record := some (r.failed now cancelled), live := none, timers := [] })
    (told : Failure → Prop) :
    ∃ r', (e.about run).Turned l.flow l.context [] kept calm (Ground l.flow told) r r' b := by
  subst hb
  exact ⟨_, Share.turned_of_failed_at_once rfl rfl rfl hc (ground_of_failed .cancelled _ _)
    (sayings_failed _ _ _) (List.forall_mem_singleton.2 (.failed _))
    (Share.pending_broken _ _ _).subperm⟩

/-- When delays are called off, what is behind them is given up. -/
theorem pending_undelayed (e : Engine) (run node : String) (f : Flow) :
    (((e.undelayed run node).about run).pending f).Sublist ((e.about run).pending f) := by
  rw [← Share.flatten_duties, ← Share.flatten_duties]
  exact (duties_undelayed e run node f).flatten

/-- Delays of a run are called off. -/
theorem turned_cancelDelay {kept calm : Prop} {ground : String → Prop}
    (h : (e.about run).Going [] r l) (node : String)
    (hk : kept → e.timers.countAt run node = 0) (hc : ¬ calm) (now : Int) :
    ∃ r', (e.about run).Turned l.flow l.context [] kept calm ground r r'
      ((e.cancelDelay now run node).1.about run) := by
  rw [cancelDelay_eq]
  by_cases hz : e.timers.countAt run node = 0
  · refine ⟨r, turned_of_eq h ?_⟩
    simp [hz, about_undelayed_of_none hz]
  · have hlive : e.isLive run = true := by simp [isLive_eq, h.live]
    simp only [hlive, hz, ne_eq, not_false_eq_true, decide_true, Bool.and_self, if_true]
    have hg := going_undelayed h node
    have hw := walked_undelayed e now run node
    obtain ⟨r₁, l₁, hg₁, hsay, hflow, hevent⟩ := hg.walked_of hw.own
    refine turned_complete hg₁ ⟨hg₁.record, ?_, ?_, ⟨[], _, by simpa using hsay, ?_, ?_⟩, ?_,
      ground_of_going hg₁, by simp⟩ now
    · intro l' hl'
      obtain rfl : l₁ = l' := Option.some.inj (hg₁.live.symm.trans hl')
      exact ⟨hflow, context_eq hevent⟩
    · rintro before whole ⟨done, opened, hled⟩
      have hgiven : ¬ (whole ∧ kept ∧ r₁.status ≠ .failed) := fun hw => hz (hk hw.2.1)
      obtain ⟨opened', hled⟩ := hled.drop (pending_undelayed e run node l.flow).subperm hgiven
      refine ⟨done, opened', ?_⟩
      rw [hw.own.pending hg.record hg.live, about_withLive, List.flatMap_nil, List.append_nil,
        List.append_nil]
      exact hled
    · simpa using .cancelled node
    · exact fun hcalm => absurd hcalm hc
    · exact fun hcalm => absurd hcalm hc

/-! ## Every turn -/

/-- **What a turn does to a run that is going.** -/
theorem turned_take (hc : e.Coherent) (h : (e.about run).Going [] r l) (now : Int) {t : Turn}
    (ha : t.Admitted e) : ∃ r', (e.about run).Turned l.flow l.context (e.met run t)
      (t.Keeps e run) (e.Calm run l t) (Ground l.flow fun failure => t.Tells e run failure) r r'
        ((e.take now t).about run) := by
  by_cases hw : t.Works e run
  · rw [met_of_live h.live]
    rcases exists_departure hc.tidy h hw now with ⟨⟨d⟩⟩ | ⟨⟨d⟩⟩
    · exact turned_departure d (fun hcalm => hcalm.2.2) _
    · rw [d.reason.errand, Flow.tour_nil]
      exact turned_forsaken d d.reason.not_calm d.reason.ground
  rw [met_of_errand_nil h.live (errand_of_not_works hw l.flow)]
  have hidle := idle_take hc h now ha hw
  generalize (e.take now t).about run = after at hidle ⊢
  cases hidle with
  | unchanged => exact ⟨r, turned_of_eq h rfl⟩
  | cancelled hcancel =>
    refine turned_cancelled (fun hcalm => ?_) now rfl _
    rcases hcancel with rfl | ⟨flowId, rfl, hm⟩
    · exact hcalm.1 rfl
    · exact hcalm.1 hm
  | undelayed node =>
    exact turned_cancelDelay h node (fun hk => hk rfl) (fun hcalm => hcalm.1 rfl) now

end Engine

end Campaign
