import Campaign.Proofs.Host.Turns
import Campaign.Proofs.Worker
/-!
# A host at work

A task that is carried out brings a signal to the engine or lets the delay of a timer begin
(`Host.Carried`).  So all that a host does on its own, between one thing that a client wants and the
next, is a matter of turns of the engine in which no run starts: to settle, and to let time pass.
So is what it does while a client waits for a run (`continues_wait`), and when its timers are
stopped and none is set (`continues_stopTimers`).
-/
namespace Campaign

/-- The signal that a task brings. -/
def Job.signal? : Job → Option Signal
  | .begin run => some (.walk run)
  | .arm timer _ | .fire timer => some (.timer timer)
  | .reply ticket _ => some (.reply ticket)
  | .wish _ => none

namespace Host

variable {e : Engine} {h h' : Host} {job : Job}

/-! ## Tasks -/

/-- What becomes of a task that is carried out. -/
inductive Carried (h : Host) : Job → Host → Prop
  /-- A signal is brought to the engine, and what the engine then wants is done. -/
  | signal {job : Job} {t : Turn} {s : Signal} (sender : Sender) :
      t.signal? = some s → job.signal? = some s →
      Carried h job (({ h with sender } : Host).act fun e => e.take h.now t)
  /-- The delay of a timer begins. -/
  | delay {timer : Nat} {ms : Int} : (h.engine.timers.find? timer).isSome →
      Carried h (.arm timer ms)
        { h with agenda := h.agenda.putOff (ms * 1000) (.fire timer) }
  /-- The timer is gone. -/
  | gone {timer : Nat} {ms : Int} : h.engine.timers.find? timer = none →
      Carried h (.arm timer ms) h

theorem carried_of_perform (hp : h.perform job = some h') : Carried h job h' := by
  cases job with
  | begin run =>
    obtain rfl := Option.some.inj hp
    exact .signal (t := .begin run) h.sender rfl rfl
  | arm timer ms =>
    simp only [perform] at hp
    split at hp <;> rename_i hfind <;> obtain rfl := Option.some.inj hp
    · exact .delay hfind
    · exact .gone (Option.not_isSome_iff_eq_none.1 hfind)
  | fire timer =>
    obtain rfl := Option.some.inj hp
    exact .signal (t := .fire timer) h.sender rfl rfl
  | reply ticket outcome =>
    obtain rfl := Option.some.inj hp
    exact .signal (t := .reply ticket (h.sender.conclude h.now outcome).2)
      (h.sender.conclude h.now outcome).1 rfl rfl
  | wish w => cases hp

/-- A turn in which no run starts, and all that the engine then wants. -/
theorem continues_act_take (hc : h.engine.Coherent) (now : Int) {t : Turn}
    (ha : t.Admitted h.engine) (hs : ¬ t.Starts) :
    h.engine.Continues (h.act fun e => e.take now t).engine := by
  have htake : h.engine.Continues (h.engine.take now t) := Engine.Continues.refl.take now ha hs
  exact htake.trans (continues_act (f := fun e => e.take now t) (htake.coherent hc))

theorem continues_perform (hc : h.engine.Coherent) (hp : h.perform job = some h') :
    h.engine.Continues h'.engine := by
  cases carried_of_perform hp with
  | @signal _ t s sender ht _ =>
    obtain ⟨ha, hs, -⟩ := Turn.of_signal ht h.engine
    exact continues_act_take (h := { h with sender }) hc h.now ha hs
  | delay _ => exact .refl
  | gone _ => exact .refl

/-- A task that is not carried out is a wish. -/
theorem wish_of_perform (hp : h.perform job = none) : ∃ w, job = .wish w := by
  cases job with
  | wish w => exact ⟨w, rfl⟩
  | arm timer ms =>
    simp only [perform] at hp
    split at hp <;> cases hp
  | _ => cases hp

/-- The engine goes on by turns whatever its worker does. -/
theorem continues_does (he : e.Coherent) (h h' : Host) (hc : e.Continues h.engine)
    (hd : worker.Does h h') : e.Continues h'.engine := by
  cases hd with
  | @perform job agenda _ _ hp =>
    have hcoherent : (worker.setAgenda h agenda).engine.Coherent := hc.coherent he
    have hperform := continues_perform hcoherent hp
    exact hc.trans hperform
  | hand => exact hc
  | pass => exact hc

theorem continues_settle (hc : h.engine.Coherent) : h.engine.Continues h.settle.engine := by
  simp only [settle, purge]
  exact Worker.kept_settle (p := fun h' : Host => h.engine.Continues h'.engine)
    (continues_does hc) (fun _ hk => hk) .refl

theorem continues_advance (hc : h.engine.Coherent) (micros : Int) :
    h.engine.Continues (h.advance micros).engine := by
  simp only [advance, purge]
  exact Worker.kept_advance (p := fun h' : Host => h.engine.Continues h'.engine)
    (continues_does hc) (fun _ hk => hk) .refl

end Host

end Campaign
