import Campaign.Engine.Host
import Campaign.Proofs.Agenda
import Campaign.Proofs.Engine.Frame
/-!
# A host lets turns of its engine take place

Whatever a host does to serve its engine, the engine goes on by turns in which no run starts
(`Engine.Continues`).  So all that holds of histories holds of an engine at work.

* `Host.Kept` are the properties of a host that turns keep, and that do not depend on the sender or
  on what is put on the agenda; serving the engine keeps them (`Kept.serve`).
* What is kept by each thing that a host does for its engine is kept by all of them (`kept_absorb`);
  so all that the engine wants is a matter of turns (`continues_absorb`).

Time stands still meanwhile (`now_absorb`).
-/
namespace Campaign

namespace Engine

/-- Whether an engine goes on to another by turns in which no run starts. -/
inductive Continues (e : Engine) : Engine → Prop
  | refl : Continues e e
  | take {e' : Engine} {t : Turn} (now : Int) : Continues e e' → t.Admitted e' → ¬ t.Starts →
      Continues e (e'.take now t)

variable {e e' e'' : Engine}

namespace Continues

theorem trans (h₁ : Continues e e') (h₂ : Continues e' e'') : Continues e e'' := by
  induction h₂ with
  | refl => exact h₁
  | take now _ ha hs ih => exact ih.take now ha hs

theorem coherent (h : Continues e e') (hc : e.Coherent) : e'.Coherent := by
  induction h with
  | refl => exact hc
  | take now _ ha _ ih => exact coherent_take ih now ha

theorem reachable (h : Continues e e') (hr : e.Reachable) : e'.Reachable := by
  induction h with
  | refl => exact hr
  | take now _ ha _ ih => exact ih.take now ha

theorem frame (h : Continues e e') : e'.frame = e.frame := by
  induction h with
  | refl => rfl
  | take now _ _ hs ih => exact (frame_take hs).trans ih

theorem wanes (h : Continues e e') (hc : e.Coherent) : Wanes e e' := by
  induction h with
  | refl => exact .refl e
  | take now h' _ hs ih => exact ih.trans (wanes_take (h'.coherent hc) now hs)

end Continues

/-- The outside takes up all that is wanted. -/
theorem continues_cleared (e : Engine) : Continues e { e with effects := [] } :=
  Continues.refl.take 0 (t := .served []) (by simp [Turn.Admitted]) id

/-- What was wanted and has not been taken up can be put back behind what has come since. -/
theorem admitted_rest {effect : Effect} {rest : List Effect} (hc : e.Coherent)
    (he : e.effects = effect :: rest) (h : Continues { e with effects := [] } e') :
    (Turn.served (e'.effects ++ rest)).Admitted e' := by
  have hcleared := (continues_cleared e).coherent hc
  intro ticket message hm
  rcases List.mem_append.1 hm with hm | hm
  · exact (h.coherent hcleared).tidy.asked ticket message (List.mem_filter.2 ⟨hm, rfl⟩)
  · have hasked : ticket < e.tickets := by
      refine hc.tidy.asked ticket message (List.mem_filter.2 ⟨?_, rfl⟩)
      rw [he]
      exact List.mem_cons_of_mem effect hm
    exact Nat.lt_of_lt_of_le hasked (h.wanes hcleared).tickets

end Engine

/-- A sender speaks as such. -/
theorem Sender.reporter_take {s : Sender} {now : Int} {m : Message} {n : Notice}
    (h : n ∈ (s.take now m).2.2) : n.reporter = .sender := by
  cases s with
  | script => cases h
  | mock => rw [List.mem_singleton.1 h]
  | webhook w answers posts =>
    simp only [take, Webhook.reply, Webhook.replyDecoding] at h
    split at h
    · cases h
    · split at h
      · cases h
      · split at h
        · cases h
        · rw [List.mem_singleton.1 h]

namespace Host

/-- What turns of the engine keep, whatever its outside is.  Wishes of a client may come off the
agenda meanwhile, but not onto it. -/
structure Kept (P : Host → Prop) : Prop where
  turn : ∀ (h : Host) (now : Int) (t : Turn), P h → t.Admitted h.engine → ¬ t.Starts →
    (∀ effects, t ≠ .served effects) → P { h with engine := h.engine.take now t }
  outside : ∀ (h : Host) (sender : Sender) (sent : List Message) (agenda : Agenda Job), P h →
    (∀ w, agenda.Holds (.wish w) → h.agenda.Holds (.wish w)) → P { h with sender, sent, agenda }

namespace Kept

variable {P : Host → Prop} {h : Host}

theorem post (hk : Kept P) (hp : P h) {job : Job} (hj : ∀ w, job ≠ .wish w) : P (h.post job) := by
  refine hk.outside h h.sender h.sent _ hp fun w hw => ?_
  exact (Agenda.holds_post.1 hw).resolve_right (hj w).symm

theorem putOff (hk : Kept P) (hp : P h) {job : Job} (hj : ∀ w, job ≠ .wish w) (micros : Int) :
    P { h with agenda := h.agenda.putOff micros job } := by
  refine hk.outside h h.sender h.sent _ hp fun w hw => ?_
  exact (Agenda.holds_putOff.1 hw).resolve_right (hj w).symm

theorem notes (hk : Kept P) (hp : P h) {notices : List Notice}
    (hn : ∀ n ∈ notices, n.reporter = .sender) :
    P (h.turn fun e => notices.foldl Engine.note e) := by
  induction notices generalizing h with
  | nil => exact hp
  | cons n notices ih =>
    have hnoted : P { h with engine := h.engine.take 0 (.told n) } :=
      hk.turn h 0 (.told n) hp (hn n List.mem_cons_self) id (by simp)
    exact ih hnoted fun m hm => hn m (List.mem_cons_of_mem n hm)

theorem deliver (hk : Kept P) (hp : P h) (ticket : Nat) (m : Message) :
    P (h.deliver ticket m).1 := by
  have hnotices := @Sender.reporter_take h.sender h.now m
  unfold Host.deliver
  generalize h.sender.take h.now m = taken at *
  obtain ⟨sender, delivery, notices⟩ := taken
  have htaken : P { h with sender, sent := h.sent ++ [m] } :=
    hk.outside h sender _ h.agenda hp fun _ => id
  have hnoted := hk.notes htaken fun n hn => hnotices hn
  obtain ⟨cancels, delay, outcome⟩ := delivery
  cases cancels with
  | none =>
    cases delay with
    | none => exact hnoted
    | some micros => exact hk.putOff hnoted (by simp) micros
  | some run =>
    have hcancelled := hk.turn _ h.now (.cancelRun run) hnoted trivial id (by simp)
    cases delay with
    | none => exact hcancelled
    | some micros => exact hk.putOff hcancelled (by simp) micros

theorem bringReply (hk : Kept P) (hp : P h) (ticket : Nat) (outcome : Delivered) :
    P (h.bringReply ticket outcome) := by
  unfold Host.bringReply
  generalize h.sender.conclude h.now outcome = concluded
  obtain ⟨sender, r⟩ := concluded
  have houtside : P { h with sender } := hk.outside h sender h.sent h.agenda hp fun _ => id
  exact hk.turn _ _ (.reply ticket r) houtside trivial id (by simp)

/-- A host keeps to it when it does what the engine wants, if it does when a run has ended. -/
theorem serve (hk : Kept P) (hp : P h) {effect : Effect}
    (ended : ∀ run, effect = .ended run → P (h.serve effect)) : P (h.serve effect) := by
  cases effect with
  | begin run => exact hk.post hp (by simp)
  | arm timer ms => exact hk.post hp (by simp)
  | ended run => exact ended run rfl
  | send ticket m =>
    have hdelivered := hk.deliver hp ticket m
    simp only [Host.serve]
    split
    · rename_i h' outcome heq
      rw [heq] at hdelivered
      exact hk.bringReply hdelivered ticket outcome
    · rename_i h' heq
      rw [heq] at hdelivered
      exact hdelivered

end Kept

variable {h : Host}

theorem serve_ended_engine (run : String) : (h.serve (.ended run)).engine = h.engine := by
  simp only [serve]
  split
  · split <;> rfl
  · rfl

/-- Serving the engine is a matter of turns. -/
theorem kept_continues (e : Engine) : Kept fun h => e.Continues h.engine where
  turn := fun _ now _ hp ha hs _ => hp.take now ha hs
  outside := fun _ _ _ _ hp _ => hp

theorem continues_serve (h : Host) (effect : Effect) :
    h.engine.Continues (h.serve effect).engine := by
  refine (kept_continues h.engine).serve .refl fun run heq => ?_
  rw [heq, serve_ended_engine]
  exact .refl

/-- The host when the outside has taken up all that was wanted. -/
def cleared (h : Host) : Host := { h with engine := { h.engine with effects := [] } }

theorem coherent_cleared (hc : h.engine.Coherent) : h.cleared.engine.Coherent :=
  (Engine.continues_cleared h.engine).coherent hc

/-- The host when the first thing that was wanted has been done. -/
def served (h : Host) (effect : Effect) (rest : List Effect) : Host :=
  let h' := { h with engine := { h.engine with effects := [] } }.serve effect
  { h' with engine := { h'.engine with effects := h'.engine.effects ++ rest } }

theorem absorb_of_nil (he : h.engine.effects = []) (fuel : Nat) : absorb fuel h = h := by
  cases fuel <;> simp [absorb, he]

theorem absorb_of_cons {effect : Effect} {rest : List Effect}
    (he : h.engine.effects = effect :: rest) (fuel : Nat) :
    absorb (fuel + 1) h = absorb fuel (h.served effect rest) := by
  simp only [absorb, he]
  rfl

theorem continues_served (hc : h.engine.Coherent) {effect : Effect} {rest : List Effect}
    (he : h.engine.effects = effect :: rest) :
    h.engine.Continues (h.served effect rest).engine := by
  have hserve := continues_serve { h with engine := { h.engine with effects := [] } } effect
  have hrest := Engine.admitted_rest hc he hserve
  exact ((Engine.continues_cleared h.engine).trans hserve).take 0 hrest id

/-- What is kept by each thing that a host does for its engine is kept by all of them. -/
theorem kept_absorb {P : Host → Prop} (step : ∀ h effect rest, P h →
    h.engine.effects = effect :: rest → P (h.served effect rest)) (hp : P h) (fuel : Nat) :
    P (absorb fuel h) := by
  induction fuel generalizing h with
  | zero => exact hp
  | succ fuel ih =>
    cases he : h.engine.effects with
    | nil =>
      rw [absorb_of_nil he]
      exact hp
    | cons effect rest =>
      rw [absorb_of_cons he]
      exact ih (step h effect rest hp he)

/-- **Doing all that the engine wants is a matter of turns.** -/
theorem continues_absorb (hc : h.engine.Coherent) (fuel : Nat) :
    h.engine.Continues (absorb fuel h).engine :=
  kept_absorb (P := fun h' => h.engine.Continues h'.engine)
    (fun _ _ _ hp he => hp.trans (continues_served (hp.coherent hc) he)) .refl fuel

/-- A turn after which the host does what the engine wants. -/
theorem continues_act {f : Engine → Engine} (hc : (f h.engine).Coherent) :
    (f h.engine).Continues (h.act f).engine :=
  continues_absorb (h := h.turn f) hc _

theorem attempt_snd (f : Engine → Engine × Bool) : (h.attempt f).2 = (f h.engine).2 := by
  unfold attempt
  split <;> simp_all

/-- A turn after which the host does what the engine wants if it came to anything. -/
theorem continues_attempt {f : Engine → Engine × Bool} (hc : (f h.engine).1.Coherent) :
    (f h.engine).1.Continues (h.attempt f).1.engine := by
  unfold attempt
  split
  · rename_i engine heq
    rw [heq] at hc ⊢
    exact continues_absorb (h := { h with engine }) hc _
  · rename_i engine heq
    rw [heq]
    exact .refl

/-! ## The clock -/

theorem now_deliver (h : Host) (ticket : Nat) (m : Message) :
    (h.deliver ticket m).1.now = h.now := by
  unfold deliver
  generalize h.sender.take h.now m = taken
  obtain ⟨sender, ⟨cancels, delay, outcome⟩, notices⟩ := taken
  cases cancels <;> cases delay
  case none.none => rfl
  case some.none => rfl
  all_goals exact Agenda.now_putOff _

theorem now_serve (h : Host) (effect : Effect) : (h.serve effect).now = h.now := by
  cases effect with
  | begin run => rfl
  | arm timer ms => rfl
  | ended run =>
    simp only [serve]
    split
    · split <;> rfl
    · rfl
  | send ticket m =>
    have hdelivered := now_deliver h ticket m
    simp only [serve]
    split
    · rename_i h' outcome heq
      rw [heq] at hdelivered
      exact hdelivered
    · rename_i h' heq
      rw [heq] at hdelivered
      exact hdelivered

theorem now_absorb (fuel : Nat) (h : Host) : (absorb fuel h).now = h.now :=
  kept_absorb (P := fun h' => h'.now = h.now)
    (fun h' effect _ hp _ => (now_serve h'.cleared effect).trans hp) rfl fuel

/-- **Time stands still while a turn takes place.** -/
theorem now_act (h : Host) (f : Engine → Engine) : (h.act f).now = h.now :=
  now_absorb _ (h.turn f)

theorem now_attempt (h : Host) (f : Engine → Engine × Bool) : (h.attempt f).1.now = h.now := by
  unfold attempt
  split
  · exact now_absorb _ _
  · rfl

end Host

end Campaign
