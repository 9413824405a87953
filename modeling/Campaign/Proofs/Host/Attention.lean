import Campaign.Proofs.Engine.Accounting
import Campaign.Proofs.Host.Budget
import Campaign.Proofs.Host.Released
/-!
# No signal is lost

Every signal for which an engine waits will come: the engine still asks for it, or it stands on the
agenda of the host (`Host.Attentive`).  Between tasks the host has done all that the engine wants,
so the agenda holds a task for each of them (`Host.Steady`); where the agenda has run out no run is
live (`Steady.live_of_nothing`).
-/
namespace Campaign.Host

variable {P Q : Signal → Prop} {h h' : Host} {run : String} {w : Wish} {job : Job}
  {g : Agenda Job}

/-- Whether every signal for which the engine waits will come: it is in hand, the engine asks for
it, or it is on the agenda. -/
def Attentive (hand : Signal → Prop) (h : Host) : Prop :=
  ∀ s, h.engine.Expects s → hand s ∨ (∃ x ∈ h.engine.effects, x.signal? = some s) ∨
    ∃ job, h.agenda.Holds job ∧ job.signal? = some s

namespace Attentive

/-- What was in hand is passed on, or put on the agenda. -/
theorem pass (ha : Attentive P h) (hasks : h.engine.Asks h'.engine)
    (hholds : ∀ job, h.agenda.Holds job → h'.agenda.Holds job)
    (hp : ∀ s, P s → Q s ∨ ∃ job, h'.agenda.Holds job ∧ job.signal? = some s) :
    Attentive Q h' := by
  obtain ⟨added, heffects, hexpects⟩ := hasks
  intro s hs
  rw [heffects]
  rcases hexpects s hs with hs | ⟨x, hx, hsignal⟩
  · rcases ha s hs with hs | ⟨x, hx, hsignal⟩ | ⟨job, hjob, hsignal⟩
    · exact (hp s hs).imp_right .inr
    · exact .inr (.inl ⟨x, List.mem_append_left _ hx, hsignal⟩)
    · exact .inr (.inr ⟨job, hholds job hjob, hsignal⟩)
  · exact .inr (.inl ⟨x, List.mem_append_right _ hx, hsignal⟩)

/-- A signal that was in hand is brought to the engine. -/
theorem take {t : Turn} (ha : Attentive (fun s => t.signal? = some s ∨ Q s) h)
    (hc : h.engine.Coherent) (now : Int) (hs : ¬ t.Starts)
    (hserved : ∀ effects, t ≠ .served effects) :
    Attentive Q { h with engine := h.engine.take now t } := by
  obtain ⟨added, heffects, hexpects⟩ := Engine.asks_take hc now hs hserved
  intro s hexp
  rw [heffects]
  rcases hexpects s hexp with ⟨hbefore, hother⟩ | ⟨x, hx, hsignal⟩
  · rcases ha s hbefore with (hsignal | hs) | ⟨x, hx, hsignal⟩ | hjob
    · exact absurd hsignal hother
    · exact .inl hs
    · exact .inr (.inl ⟨x, List.mem_append_left _ hx, hsignal⟩)
    · exact .inr (.inr hjob)
  · exact .inr (.inl ⟨x, List.mem_append_right _ hx, hsignal⟩)

/-- Where nothing is asked for, a signal is in hand or on the agenda. -/
theorem held (ha : Attentive P h) (he : h.engine.effects = []) {s : Signal}
    (hs : h.engine.Expects s) : P s ∨ ∃ job, h.agenda.Holds job ∧ job.signal? = some s := by
  refine (ha s hs).imp_right fun hs => hs.resolve_left ?_
  rintro ⟨x, hx, -⟩
  rw [he] at hx
  cases hx

end Attentive

/-! ## Serving the engine -/

theorem kept_asks (e : Engine) : Kept fun h => h.engine.Coherent ∧ e.Asks h.engine where
  turn := fun _ now _ hp ha hs hserved => ⟨Engine.coherent_take hp.1 now ha,
    hp.2.trans (Engine.regular_take hp.1 now hs hserved).asks⟩
  outside := fun _ _ _ _ hp _ => hp

/-- A reply that takes time stands on the agenda. -/
theorem deliver_later {ticket : Nat} {m : Message} (hd : h.deliver ticket m = (h', none)) :
    ∃ outcome, h'.agenda.Holds (.reply ticket outcome) := by
  unfold deliver at hd
  generalize h.sender.take h.now m = taken at hd
  obtain ⟨sender, ⟨cancels, delay, outcome⟩, notices⟩ := taken
  refine ⟨outcome, ?_⟩
  cases cancels <;> cases delay <;> obtain ⟨rfl, hnone⟩ := Prod.mk.inj hd
  case none.none => cases hnone
  case some.none => cases hnone
  all_goals exact Agenda.holds_putOff.2 (.inr rfl)

/-- **A host that serves its engine loses no signal.** -/
theorem attentive_serve (hc : h.engine.Coherent) {effect : Effect}
    (ha : Attentive (fun s => effect.signal? = some s ∨ Q s) h) : Attentive Q (h.serve effect) := by
  cases effect with
  | begin run =>
    refine ha.pass (.refl _) (fun _ hj => Agenda.holds_post.2 (.inl hj)) fun s hs => ?_
    exact hs.symm.imp_right fun hs => ⟨.begin run, Agenda.holds_post.2 (.inr rfl), hs⟩
  | arm timer ms =>
    refine ha.pass (.refl _) (fun _ hj => Agenda.holds_post.2 (.inl hj)) fun s hs => ?_
    exact hs.symm.imp_right fun hs => ⟨.arm timer ms, Agenda.holds_post.2 (.inr rfl), hs⟩
  | ended run =>
    refine ha.pass ?_ (fun _ => holds_serve _) fun s hs => .inl (hs.resolve_left ?_)
    · rw [serve_ended_engine]
      exact .refl _
    · simp [Effect.signal?]
  | send ticket m =>
    obtain ⟨hcoherent, hasks⟩ := (kept_asks h.engine).deliver ⟨hc, .refl _⟩ ticket m
    have hholds := (h.deliver_outside ticket m).2
    simp only [serve]
    split
    · rename_i d outcome heq
      rw [heq] at hcoherent hasks hholds
      have hd : Attentive (fun s => some (.reply ticket) = some s ∨ Q s) d :=
        ha.pass hasks hholds fun s hs => .inl hs
      exact Attentive.take (t := .reply ticket _) (h := { d with sender := _ }) hd hcoherent _ id
        (by simp)
    · rename_i d heq
      obtain ⟨outcome, hreply⟩ := deliver_later heq
      rw [heq] at hasks hholds
      exact ha.pass hasks hholds fun s hs =>
        hs.symm.imp_right fun hs => ⟨.reply ticket outcome, hreply, hs⟩

theorem attentive_served (hc : h.engine.Coherent) {effect : Effect} {rest : List Effect}
    (he : h.engine.effects = effect :: rest) (ha : Attentive Q h) :
    Attentive Q (h.served effect rest) := by
  have hcleared : Attentive (fun s => effect.signal? = some s ∨
      (∃ x ∈ rest, x.signal? = some s) ∨ Q s) h.cleared := by
    intro s hs
    have hexp : h.engine.Expects s := by cases s <;> exact hs
    rcases ha s hexp with hq | ⟨x, hx, hsignal⟩ | hjob
    · exact .inl (.inr (.inr hq))
    · rw [he] at hx
      rcases List.mem_cons.1 hx with rfl | hx
      · exact .inl (.inl hsignal)
      · exact .inl (.inr (.inl ⟨x, hx, hsignal⟩))
    · exact .inr (.inr hjob)
  have hserve := attentive_serve (coherent_cleared hc) hcleared
  intro s hs
  have hexp : (h.cleared.serve effect).engine.Expects s := by cases s <;> exact hs
  rcases hserve s hexp with (⟨x, hx, hsignal⟩ | hq) | ⟨x, hx, hsignal⟩ | hjob
  · exact .inr (.inl ⟨x, List.mem_append_right _ hx, hsignal⟩)
  · exact .inl hq
  · exact .inr (.inl ⟨x, List.mem_append_left _ hx, hsignal⟩)
  · exact .inr (.inr hjob)

theorem Attentive.absorb (ha : Attentive Q h) (hc : h.engine.Coherent) (fuel : Nat) :
    Attentive Q (absorb fuel h) := by
  refine (kept_absorb (P := fun h' => h'.engine.Coherent ∧ Attentive Q h') ?_ ⟨hc, ha⟩ fuel).2
  rintro h' effect rest ⟨hc', ha'⟩ he
  exact ⟨(continues_served hc' he).coherent hc', attentive_served hc' he ha'⟩

/-! ## Between tasks -/

/-- A host between tasks: it has done all that the engine wants, and the agenda holds a task for
every signal for which the engine waits. -/
structure Steady (h : Host) : Prop where
  coherent : h.engine.Coherent
  effects : h.engine.effects = []
  attentive : ∀ s, h.engine.Expects s → ∃ job, h.agenda.Holds job ∧ job.signal? = some s

/-- A host that has done all that the engine wants. -/
theorem Attentive.oblige (ha : Attentive (fun _ => False) h) (hc : h.engine.Coherent) :
    Steady h.oblige := by
  have heffects := effects_oblige hc
  refine ⟨(continues_absorb hc _).coherent hc, heffects, fun s hs => ?_⟩
  exact ((ha.absorb hc h.engine.worth).held heffects hs).resolve_left id

namespace Steady

/-- A task that comes up is in hand. -/
theorem popped (hs : Steady h) (hnext : h.agenda.next = .perform job g) :
    Attentive (fun s => job.signal? = some s) { h with agenda := g } := by
  intro s hexp
  obtain ⟨job', hjob', hsignal⟩ := hs.attentive s hexp
  rcases (Agenda.holds_of_perform hnext).1 hjob' with rfl | hrest
  · exact .inl hsignal
  · exact .inr (.inr ⟨job', hrest, hsignal⟩)

/-- What the client puts on the agenda or takes off it does not matter. -/
theorem outside (hs : Steady h) (awaited : Option (String × Wish)) {agenda : Agenda Job}
    (hholds : ∀ job, (job.signal?).isSome → h.agenda.Holds job → agenda.Holds job) :
    Steady { h with agenda, awaited } := by
  refine ⟨hs.coherent, hs.effects, fun s hexp => ?_⟩
  obtain ⟨job, hjob, hsignal⟩ := hs.attentive s hexp
  exact ⟨job, hholds job (by rw [hsignal]; rfl) hjob, hsignal⟩

theorem post (hs : Steady h) (w : Wish) : Steady (h.post (.wish w)) :=
  hs.outside h.awaited fun _ _ hj => Agenda.holds_post.2 (.inl hj)

theorem dropWish (hs : Steady h) (w : Wish) : Steady (h.dropWish w) := by
  refine hs.outside h.awaited fun job hsignal hj => Agenda.holds_drop.2 ⟨hj, ?_⟩
  rw [beq_eq_false_iff_ne]
  rintro rfl
  cases hsignal

end Steady

/-- A wish that comes up brings no signal. -/
theorem Steady.hand (hs : Steady h) (hnext : h.agenda.next = .perform (.wish w) g) :
    Steady { h with agenda := g } := by
  refine hs.outside h.awaited fun job hsignal hj => ?_
  refine ((Agenda.holds_of_perform hnext).1 hj).resolve_left ?_
  rintro rfl
  cases hsignal

end Campaign.Host
