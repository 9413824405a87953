import Campaign.Proofs.Engine.Story
import Campaign.Proofs.Entries
import Campaign.Proofs.Host.Waiting
/-!
# The life of a run

From its start to its end a run is live as long as its record says that it is pending or running;
its status moves only where it may, its log only grows, and its record tells its story
(`Run.Told`).  Nothing ever goes wrong with its record, and whoever waits for it waits for its end.

`Reachable.lifecycle` puts this together.
-/
namespace Campaign

open Relation

/-- What becomes of the record of a run in the course of time. -/
structure Run.Onward (r r' : Run) : Prop where
  status : ReflTransGen RunStatus.Move r.status r'.status
  log : r.log <+: r'.log

theorem Run.Onward.refl (r : Run) : r.Onward r := ⟨.refl, List.prefix_refl _⟩

/-- A record that says that its run goes on is that of an open story. -/
theorem Run.Story.open {r : Run} {name : String} (h : r.Story name)
    (hr : r.status.terminal = false) : r.Open name := by
  cases h with
  | going h => exact h
  | completed now h => cases hr
  | failed now error h he => cases hr

namespace Engine

variable {e : Engine} {run : String} {r : Run} {name : String}

/-- A run is live as long as its record says that it goes on. -/
theorem Coherent.mem_liveRuns (hc : e.Coherent) (hr : e.runs.get? run = some r) :
    run ∈ e.liveRuns ↔ r.status = .pending ∨ r.status = .running := by
  rw [liveRuns, OrderedMap.mem_keys]
  cases hc.known hr with
  | going r' l hg =>
    obtain rfl : r' = r := Option.some.inj (hg.record.symm.trans hr)
    have hlive : e.live.get? run = some l := hg.live
    have hterm := hg.not_terminal
    refine iff_of_true (by simp [hlive]) ?_
    revert hterm
    cases r'.status <;> decide
  | ended r' hr' hterm hl =>
    obtain rfl : r' = r := Option.some.inj (hr'.symm.trans hr)
    have hlive : e.live.get? run = none := hl
    refine iff_of_false (by simp [hlive]) ?_
    revert hterm
    cases r'.status <;> decide

/-- A turn goes on with the story of a run. -/
theorem story_take (hc : e.Coherent) (hr : e.runs.get? run = some r) (hs : r.Story name)
    (now : Int) {t : Turn} (ha : t.Admitted e) :
    ∃ r', (e.take now t).runs.get? run = some r' ∧ r'.Story name ∧ r.Onward r' := by
  cases hc.known hr with
  | going r₀ l hg =>
    obtain rfl : r₀ = r := Option.some.inj (hg.record.symm.trans hr)
    obtain ⟨r', hr', hfollows⟩ := follows_take hc hg now ha
    have hterm := hg.not_terminal
    exact ⟨r', hr', (hs.open hterm).follows hfollows, hfollows.moves hterm, hfollows.log_prefix⟩
  | ended r₀ hr₀ hterm =>
    obtain rfl : r₀ = r := Option.some.inj (hr₀.symm.trans hr)
    exact ⟨r₀, (frozen_take hc hr hterm now ha).record.trans hr, hs, .refl r₀⟩

/-- The story of a run is told all along. -/
theorem story_follow (h : e.Reachable) (hr : e.runs.get? run = some r) (hs : r.Story name)
    {history : List (Int × Turn)} (ha : e.Admits history) :
    ∃ r', (e.follow history).runs.get? run = some r' ∧ r'.Story name := by
  refine (follow_induction (p := fun e => e.Reachable ∧
    ∃ r, e.runs.get? run = some r ∧ r.Story name) ?_ ⟨h, r, hr, hs⟩ ha).2
  rintro e now t ⟨hreach, r, hr, hs⟩ hadm
  obtain ⟨r', hr', hs', -⟩ := story_take hreach.coherent hr hs now hadm
  exact ⟨hreach.take now hadm, r', hr', hs'⟩

/-- The story of a run begins with its start. -/
theorem story_start (now : Int) (flow : Flow) (event : Event) :
    ∃ r, (e.start now run flow event).runs.get? run = some r ∧ r.Story flow.name := by
  have hrec : ((e.start now run flow event).about run).record = _ :=
    congrArg Share.record (about_start now flow event)
  refine ⟨_, hrec, .going ⟨rfl, rfl, rfl, ⟨_, [], rfl, rfl⟩, fun x hx hverdict => ?_⟩⟩
  have hfalse : Begins "Run " x.said = false := by
    rw [List.mem_singleton.1 hx]
    simp [Begins, LogEntry.said, String.toList_append, List.isPrefixOf]
  rw [hverdict.begins] at hfalse
  cases hfalse

/-- **The life of a run.**  Whatever happens after its start, nothing goes wrong with any record;
the run is live just as long as its status is pending or running; its record tells its story; every
further turn moves its status only where it may, and only adds to its log; and whoever waits for it
at a host that serves nobody else is given its record when it has ended, or waits in vain. -/
theorem Reachable.lifecycle (h : e.Reachable) (now : Int) (flow : Flow) (event : Event)
    (hnew : e.runs.get? run = none) {history : List (Int × Turn)}
    (ha : (e.take now (.start run flow event)).Admits history) :
    let e' := (e.take now (.start run flow event)).follow history
    e'.mishaps = [] ∧ ∃ r, e'.runs.get? run = some r ∧
      (run ∈ e'.liveRuns ↔ r.status = .pending ∨ r.status = .running) ∧
      r.Told flow.name ∧
      (∀ now t, t.Admitted e' → ∃ r', (e'.take now t).runs.get? run = some r' ∧
        ReflTransGen RunStatus.Move r.status r'.status ∧ r.log <+: r'.log) ∧
      ∀ host : Host, host.engine = e' → host.Unattended → ∀ timeout,
        Host.Served run (host.wait run timeout) := by
  intro e'
  have hadm : (Turn.start run flow event).Admitted e := hnew
  have hstart := h.take now hadm
  have hreach : e'.Reachable := hstart.follow ha
  have hbegun : ∃ r, (e.take now (.start run flow event)).runs.get? run = some r ∧
      r.Story flow.name := story_start now flow event
  obtain ⟨r₀, hr₀, hs₀⟩ := hbegun
  obtain ⟨r, hr, hs⟩ := story_follow hstart hr₀ hs₀ ha
  refine ⟨hreach.mishaps, r, hr, hreach.coherent.mem_liveRuns hr, hs.told, fun now t hadm => ?_,
    fun host hhost hu timeout => ?_⟩
  · obtain ⟨r', hr', -, honward⟩ := story_take hreach.coherent hr hs now hadm
    exact ⟨r', hr', honward.status, honward.log⟩
  · have hcoherent : host.engine.Coherent := hhost ▸ hreach.coherent
    refine Host.served_wait hcoherent ?_ hu timeout
    rw [hhost]
    exact Option.isSome_iff_exists.2 ⟨r, hr⟩

/-- A greeting that is waited for when both its messages are out and have been taken. -/
theorem greeting_lifecycle :
    let e := Engine.follow { channel := "mail" } [(0, .start "r" greeting order), (1, .begin "r"),
      (2, .reply 0 (.accepted "m")), (3, .fire 0), (4, .reply 1 (.accepted "n"))]
    let host : Host := { engine := e, sender := .mock "mail" 5, agenda := { now := 4 } }
    e.mishaps = [] ∧ Host.Served "r" (host.wait "r" (some 10)) ∧
      ∃ r, e.runs.get? "r" = some r ∧ "r" ∉ e.liveRuns ∧ r.finishedAt.isSome ∧ r.error = none ∧
        ∃ x ∈ r.log, x.message = "Run completed successfully" := by
  intro e host
  have hnew : (Engine.runs { channel := "mail" }).get? "r" = none := rfl
  have hadm : (Engine.take { channel := "mail" } 0 (.start "r" greeting order)).Admits
      [(1, .begin "r"), (2, .reply 0 (.accepted "m")), (3, .fire 0),
        (4, .reply 1 (.accepted "n"))] := ⟨trivial, trivial, trivial, trivial, trivial⟩
  obtain ⟨hmishaps, r, hr, hlive, htold, -, hwait⟩ :=
    Reachable.lifecycle (.idle "mail") 0 greeting order hnew hadm
  have hs : r.status = .completed := by
    have hstatus : (some r).map Run.status = some .completed := by
      rw [← hr]
      decide +kernel
    exact Option.some.inj hstatus
  have hfree : host.Unattended := by
    refine ⟨rfl, fun w hw => by simp [host, Agenda.holds_iff] at hw, fun run hm => ?_⟩
    have hall : e.effects.all (fun
        | .ended run => (e.live.get? run).isNone
        | _ => true) = true := by decide +kernel
    simpa using List.all_eq_true.1 hall (.ended run) hm
  refine ⟨hmishaps, hwait host rfl hfree (some 10), r, hr, ?_, ?_, ?_, htold.completion.2 hs⟩
  · exact fun hmem => by simpa [hs] using hlive.1 hmem
  · exact htold.finishedAt.2 (by rw [hs]; rfl)
  · have hnot : ¬ r.error.isSome = true := fun hsome => by simpa [hs] using htold.failed.1 hsome
    simpa using hnot

end Engine

end Campaign
