import Campaign.Proofs.Host.Progress
/-!
# Waiting for the end of a run

A client that waits for a run is served when the run has ended, and not before: as long as the run
is live nothing comes up for the client but what belongs to its watch (`Host.Attends`).

* `Attends.work` is the step: what comes up next for the client;
* `served_wait` says that a run which a client has waited for has ended, unless the time was up.
-/
namespace Campaign.Host

/-- A host that serves no client: nobody waits for a run, no client has a wish, and the engine does
not speak of the end of a run that is live. -/
structure Unattended (h : Host) : Prop where
  awaited : h.awaited = none
  wishes : ∀ w, ¬ h.agenda.Holds (.wish w)
  told : ∀ run, .ended run ∈ h.engine.effects → h.engine.live.get? run = none

/-- A host that serves a client waiting for a run: the client is to have a wish posted when the run
ends, and as long as it is live only some wishes can come up.  It may be known that it is over. -/
structure Attends (run : String) (w : Wish) (allowed : Wish → Prop) (known : Prop) (h : Host) :
    Prop where
  coherent : h.engine.Coherent
  recorded : (h.engine.runs.get? run).isSome
  told : .ended run ∈ h.engine.effects → h.engine.live.get? run = none
  awaited : ∀ x ∈ h.awaited, x = (run, w)
  wishes : ∀ w', h.agenda.Holds (.wish w') → allowed w' ∨ h.engine.live.get? run = none
  concluded : known → h.engine.live.get? run = none

variable {run : String} {w : Wish} {allowed allowed' : Wish → Prop} {known known' : Prop}
  {h h' : Host}

theorem kept_attends (run : String) (w : Wish) (allowed : Wish → Prop) (known : Prop) :
    Kept (Attends run w allowed known) where
  turn := by
    intro h now t ha hadm hs hserved
    have hreg := Engine.regular_take ha.coherent now hs hserved
    refine ⟨Engine.coherent_take ha.coherent now hadm, hreg.recorded run ha.recorded, fun hm => ?_,
      ha.awaited, fun w' hw' => (ha.wishes w' hw').imp_right hreg.toWanes.none,
      fun hk => hreg.toWanes.none (ha.concluded hk)⟩
    rcases hreg.frank.of_mem hm with hm | ⟨-, hnone⟩
    · exact hreg.toWanes.none (ha.told hm)
    · exact hnone
  outside := fun h sender sent agenda ha hw => { ha with
    wishes := fun w' hw' => ha.wishes w' (hw w' hw') }

namespace Attends

/-- The wish of the client is posted when its run has ended. -/
theorem serve_ended (ha : Attends run w allowed known h) {s : String}
    (hs : s = run → h.engine.live.get? run = none) :
    Attends run w allowed known (h.serve (.ended s)) := by
  simp only [serve]
  split
  · rename_i awaited wish heq
    split
    · rename_i hrun
      obtain ⟨rfl, rfl⟩ : awaited = run ∧ wish = w := by
        simpa using ha.awaited (awaited, wish) (by simp [heq])
      exact { ha with
        awaited := by simp [Host.post]
        wishes := fun _ _ => .inr (hs hrun.symm) }
    · exact ha
  · exact ha

theorem served (ha : Attends run w allowed known h) {effect : Effect} {rest : List Effect}
    (he : h.engine.effects = effect :: rest) :
    Attends run w allowed known (h.served effect rest) := by
  have hcleared : Attends run w allowed known h.cleared :=
    { ha with coherent := coherent_cleared ha.coherent, told := fun hm => by cases hm }
  have hserve : Attends run w allowed known (h.cleared.serve effect) := by
    refine (kept_attends run w allowed known).serve hcleared fun s hs => ?_
    subst hs
    refine hcleared.serve_ended fun hrun => ha.told ?_
    rw [he, hrun]
    exact List.mem_cons_self
  have hwanes := (continues_serve h.cleared effect).wanes hcleared.coherent
  refine { hserve with
    coherent := (continues_served ha.coherent he).coherent ha.coherent
    told := fun hm => ?_ }
  rcases List.mem_append.1 hm with hm | hm
  · exact hserve.told hm
  · refine hwanes.none (ha.told ?_)
    rw [he]
    exact List.mem_cons_of_mem effect hm

theorem absorb (ha : Attends run w allowed known h) (fuel : Nat) :
    Attends run w allowed known (absorb fuel h) :=
  kept_absorb (fun _ _ _ ha he => ha.served he) ha fuel

/-- A turn after which the host does what the engine wants. -/
theorem act (ha : Attends run w allowed known h) (now : Int) {t : Turn}
    (hadm : t.Admitted h.engine) (hs : ¬ t.Starts) (hserved : ∀ effects, t ≠ .served effects) :
    Attends run w allowed known (h.act fun e => e.take now t) :=
  ((kept_attends run w allowed known).turn h now t ha hadm hs hserved).absorb _

theorem perform (ha : Attends run w allowed known h) {job : Job} (hp : h.perform job = some h') :
    Attends run w allowed known h' := by
  have hk := kept_attends run w allowed known
  cases carried_of_perform hp with
  | @signal _ t s sender ht _ =>
    obtain ⟨hadm, hs, hserved⟩ := Turn.of_signal ht h.engine
    have houtside : Attends run w allowed known { h with sender } :=
      hk.outside h sender h.sent h.agenda ha fun _ => id
    exact houtside.act h.now hadm hs hserved
  | delay _ => exact hk.putOff ha (by simp) _
  | gone _ => exact ha

theorem goes (ha : Attends run w allowed known h) (hg : worker.Goes h h') :
    Attends run w allowed known h' := by
  have hk := kept_attends run w allowed known
  cases hg with
  | @perform job g _ hnext hp =>
    have hrest : Attends run w allowed known { h with agenda := g } :=
      hk.outside h h.sender h.sent g ha fun w' hw' =>
        (Agenda.holds_of_perform hnext).2 (.inr hw')
    exact hrest.perform hp
  | @pass g hnext =>
    exact hk.outside h h.sender h.sent g ha fun w' hw' => (Agenda.holds_of_pass hnext).1 hw'

/-- **What comes up for a client is one of its wishes**, and one that is not allowed comes up only
when its run has ended. -/
theorem work (ha : Attends run w allowed known h) : Attends run w allowed known h.work.1 ∧
    ∀ job, h.work.2 = some job → ∃ w', job = .wish w' ∧
      (allowed w' ∨ h.work.1.engine.live.get? run = none) := by
  obtain ⟨h', ha', hstop | ⟨job, g, hnext, hp, hhand⟩⟩ :=
    Worker.workFor_cases (w := worker) (fun _ _ ha hg => goes ha hg) h.budget ha
  · have hwork : h.work = (h', none) := hstop
    rw [hwork]
    exact ⟨ha', by simp⟩
  · have hwork : h.work = ({ h' with agenda := g }, some job) := hhand
    have hg : Attends run w allowed known { h' with agenda := g } :=
      (kept_attends run w allowed known).outside h' h'.sender h'.sent g ha' fun w' hw' =>
        (Agenda.holds_of_perform hnext).2 (.inr hw')
    obtain ⟨w', rfl⟩ := wish_of_perform hp
    rw [hwork]
    refine ⟨hg, fun job' heq => ?_⟩
    obtain rfl := Option.some.inj heq
    exact ⟨w', rfl, ha'.wishes w' ((Agenda.holds_of_perform hnext).2 (.inl rfl))⟩

theorem mono (ha : Attends run w allowed known h) (hw : ∀ w', allowed w' → allowed' w')
    (hk : known' → h.engine.live.get? run = none) : Attends run w allowed' known' h :=
  { ha with wishes := fun w' hw' => (ha.wishes w' hw').imp_left (hw w'), concluded := hk }

/-- A wish is posted that is allowed, or the run has ended. -/
theorem postWish (ha : Attends run w allowed known h) {w' : Wish}
    (hw : allowed w' ∨ h.engine.live.get? run = none) :
    Attends run w allowed known (h.post (.wish w')) := by
  refine { ha with wishes := fun w'' hw'' => ?_ }
  rcases Agenda.holds_post.1 hw'' with hw'' | heq
  · exact ha.wishes w'' hw''
  · obtain rfl : w'' = w' := by simpa using heq
    exact hw

theorem dropWish (ha : Attends run w allowed known h) (w' : Wish) :
    Attends run w allowed known (h.dropWish w') :=
  (kept_attends run w allowed known).outside h h.sender h.sent _ ha fun _ hw =>
    (Agenda.holds_drop.1 hw).1

end Attends

/-- Whether a wait has come to a good end, if it has: the run has ended, and this is its record. -/
def Served (run : String) (result : Host × Waited) : Prop :=
  match result.2 with
  | .ended r => result.1.engine.runs.get? run = some r ∧ r.status.terminal
  | .timedOut | .endless => True
  | .unknown => False

/-- A run that is live no more has ended. -/
theorem Attends.served_waitedFor (ha : Attends run w allowed known h)
    (hnone : h.engine.live.get? run = none) : Served run (h.waitedFor run) := by
  obtain ⟨r, hr⟩ := Option.isSome_iff_exists.1 ha.recorded
  have heq : h.waitedFor run = (h, .ended r) := by simp only [Host.waitedFor, hr]
  rw [heq]
  refine ⟨hr, ?_⟩
  cases ha.coherent.known hr with
  | going r' l hg =>
    have hlive : h.engine.live.get? run = some l := hg.live
    rw [hnone] at hlive
    cases hlive
  | ended r' hr' hterm =>
    obtain rfl : r' = r := Option.some.inj (hr'.symm.trans hr)
    exact hterm

/-! ## A watch with a deadline -/

/-- What may come up in a watch as long as its run is live: once it is called off, anything. -/
def Watch.Allows : Watch → Wish → Prop
  | .watching, w => w = .watch ∨ w = .deadline
  | _, _ => True

/-- How things stand in a watch over a run. -/
def Watches (run : String) (phase : Watch) (h : Host) : Prop :=
  Attends run .noticed phase.Allows (phase = .seen) h

/-- Where a step of a watch leads: the watch goes on, or the wait is over. -/
def Watch.Leads (run : String) : Sum (Watch × Host) (Host × Waited) → Prop
  | .inl (phase, h) => Watches run phase h
  | .inr result => Served run result

/-- The run of a watch has ended. -/
theorem Watches.toSeen {phase : Watch} (hw : Watches run phase h)
    (hnone : h.engine.live.get? run = none) : Watches run .seen h :=
  hw.mono (fun _ _ => trivial) fun _ => hnone

theorem Watches.toCalledOff {phase : Watch} (hw : Watches run phase h) :
    Watches run .calledOff h :=
  hw.mono (fun _ _ => trivial) (by simp)

/-- Unless a watch is called off, what comes up beside its beginning and its deadline comes up when
its run has ended. -/
theorem Watches.ended {phase : Watch} (hw : Watches run phase h) {wish : Wish}
    (hcome : phase.Allows wish ∨ h.engine.live.get? run = none) (hphase : phase ≠ .calledOff)
    (hwatch : wish ≠ .watch) (hdeadline : wish ≠ .deadline) :
    h.engine.live.get? run = none := by
  rcases hcome with hallow | hnone
  · cases phase with
    | watching => exact absurd hallow (by simp [Watch.Allows, hwatch, hdeadline])
    | seen => exact hw.concluded rfl
    | calledOff => exact absurd rfl hphase
  · exact hnone

/-- What comes up in a watch is passed on by another wish. -/
theorem Watches.pass {phase : Watch} (hw : Watches run phase h) {wish : Wish}
    (hcome : phase.Allows wish ∨ h.engine.live.get? run = none) (hwatch : wish ≠ .watch)
    (hdeadline : wish ≠ .deadline) (hw' : Watches run phase h') (heq : h'.engine = h.engine)
    (w' : Wish) : Watches run phase (h'.post (.wish w')) := by
  by_cases hphase : phase = .calledOff
  · subst hphase
    exact hw'.postWish (.inl trivial)
  · refine hw'.postWish (.inr ?_)
    rw [heq]
    exact hw.ended hcome hphase hwatch hdeadline

/-- The watch notices that the run has ended, or that it was called off. -/
theorem leads_notice {phase : Watch} (hw : Watches run phase h) {wish : Wish}
    (hcome : phase.Allows wish ∨ h.engine.live.get? run = none) (hwatch : wish ≠ .watch)
    (hdeadline : wish ≠ .deadline) : Watch.Leads run (watchStep run phase h .noticed) := by
  simp only [watchStep]
  split
  · exact hw.pass hcome hwatch hdeadline hw rfl _
  · rename_i hphase
    have hnone := hw.ended hcome (fun heq => hphase heq) hwatch hdeadline
    exact (hw.toSeen hnone).postWish (.inr hnone)

/-- **What comes of a wish that comes up in a watch.** -/
theorem leads_watchStep {phase : Watch} (hw : Watches run phase h) {wish : Wish}
    (hcome : phase.Allows wish ∨ h.engine.live.get? run = none) :
    Watch.Leads run (watchStep run phase h wish) := by
  cases wish with
  | watch =>
    simp only [watchStep]
    split
    · exact { hw with awaited := by simp }
    · rename_i hlive
      have hnone : h.engine.live.get? run = none := by
        simpa [Engine.isLive, OrderedMap.contains] using hlive
      exact (hw.toSeen hnone).postWish (.inr hnone)
  | noticed => exact leads_notice hw hcome (by simp) (by simp)
  | calledOff => exact leads_notice hw hcome (by simp) (by simp)
  | report => exact hw.pass hcome (by simp) (by simp) (hw.dropWish .deadline) rfl _
  | offReport => exact hw.pass hcome (by simp) (by simp) hw rfl _
  | deadline =>
    simp only [watchStep]
    split
    · exact (hw.dropWish .report).served_waitedFor (hw.concluded rfl)
    · split
      · have hforgotten : Watches run .calledOff { h with awaited := none } :=
          { hw.toCalledOff with awaited := by simp }
        exact hforgotten.postWish (.inl trivial)
      · exact hw.toCalledOff
  | turn =>
    simp only [watchStep]
    split
    · trivial
    · rename_i hphase
      exact hw.served_waitedFor (hw.ended hcome (fun heq => hphase heq) (by simp) (by simp))

/-- **A watch comes to a good end.** -/
theorem served_watch {phase : Watch} (hw : Watches run phase h) (fuel : Nat) :
    Served run (watch run fuel phase h) := by
  induction fuel generalizing phase h with
  | zero => trivial
  | succ fuel ih =>
    obtain ⟨hworked, hcome⟩ := hw.work
    simp only [watch]
    generalize h.work = worked at *
    obtain ⟨h', job⟩ := worked
    split
    · rename_i h'' wish heq
      obtain ⟨rfl, rfl⟩ := Prod.mk.inj heq
      obtain ⟨w', hw', hallow⟩ := hcome _ rfl
      obtain rfl : wish = w' := by simpa using hw'
      have hleads := leads_watchStep hworked hallow
      split
      · rename_i hstep
        rw [hstep] at hleads
        exact ih hleads
      · rename_i hstep
        rw [hstep] at hleads
        exact hleads
    · trivial

/-- **A run that a client has waited for has ended**, unless the time was up: whoever waits for a
run of which there is a record is given its record, and its status is terminal. -/
theorem served_wait (hc : h.engine.Coherent) (hr : (h.engine.runs.get? run).isSome)
    (hu : h.Unattended) (timeout : Option Int) : Served run (h.wait run timeout) := by
  have hattends : ∀ w allowed, Attends run w allowed False h := fun w allowed =>
    ⟨hc, hr, hu.told run, by simp [hu.awaited], fun w' hw' => absurd hw' (hu.wishes w'), False.elim⟩
  simp only [wait]
  split
  case isFalse hlive =>
    refine (hattends .turn fun _ => True).served_waitedFor ?_
    simpa [Engine.isLive, OrderedMap.contains] using hlive
  split
  · have hwaits : Attends run .turn (fun _ => False) False
        { h with awaited := some (run, .turn) } :=
      { hattends .turn fun _ => False with awaited := by simp }
    obtain ⟨hworked, hcome⟩ := hwaits.work
    split
    · rename_i h' job heq
      rw [heq] at hworked hcome
      obtain ⟨w', -, hallow⟩ := hcome job rfl
      exact hworked.served_waitedFor (hallow.resolve_left id)
    · trivial
  · rename_i micros
    split
    · have hoff : Watches run .calledOff h :=
        (hattends .noticed Watch.calledOff.Allows).mono (fun _ => id) (by simp)
      exact served_watch (hoff.postWish (.inl trivial)) _
    · have hput : Watches run .watching
          { h with agenda := h.agenda.putOff micros (.wish .deadline) } := by
        refine { hattends .noticed Watch.watching.Allows with
          wishes := fun w' hw' => .inl ?_
          concluded := by simp }
        have heq := (Agenda.holds_putOff.1 hw').resolve_left (hu.wishes w')
        exact .inr (by simpa using heq)
      exact served_watch (hput.postWish (.inl (.inl rfl))) _

end Campaign.Host
