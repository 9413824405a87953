import Mathlib.Algebra.Group.Nat.Defs
import Campaign.Proofs.Service.Records
import Campaign.Server.Basic
/-!
# Histories of the server

A server responds to requests, and between requests its host gets on with the work.

* `Server.Reachable` are the servers that some history leads to from a new one.
* `Server.Does` says once what a request can make of a server; every request keeps to it
  (`does_serve`).
* A server numbers what it makes, so a flow or a run gets an id that was not given before: what goes
  on at a server is a history of its service (`Reachable.kept`), as long as there are numbers with
  sixteen digits left.
-/
namespace Campaign

/-! ## Identifiers -/

namespace Text

theorem hexDigit_inj {m n : Nat} (h : hexDigit m = hexDigit n) : m % 16 = n % 16 := by
  have hdigits : ∀ a b : Fin 16, Nat.digitChar a = Nat.digitChar b → a = b := by decide
  have hfin := hdigits ⟨m % 16, Nat.mod_lt m (by decide)⟩ ⟨n % 16, Nat.mod_lt n (by decide)⟩ h
  exact congrArg Fin.val hfin

/-- Numbers that fit are told apart by their digits. -/
theorem hex_inj {width m n : Nat} (hm : m < 16 ^ width) (hn : n < 16 ^ width)
    (h : hex width m = hex width n) : m = n := by
  induction width generalizing m n with
  | zero => omega
  | succ width ih =>
    obtain ⟨hfirst, hlast⟩ := List.append_inj' h rfl
    have hdigit : m % 16 = n % 16 := hexDigit_inj (List.head_eq_of_cons_eq hlast)
    have hrest : m / 16 = n / 16 := ih (by omega) (by omega) hfirst
    omega

end Text

theorem identifier_inj {kind : String} {m n : Nat} (hm : m < 16 ^ 16) (hn : n < 16 ^ 16)
    (h : identifier kind m = identifier kind n) : m = n := by
  have htext : String.ofList (Text.hex 16 m) = String.ofList (Text.hex 16 n) :=
    String.append_right_inj _ |>.1 h
  exact Text.hex_inj hm hn (String.ofList_injective htext)

/-! ## Requests and operations -/

/-- What a response says: its status and its body. -/
def Response.said (response : Response) : Nat × Content := (response.status, response.content)

/-- Where a request comes from matters to the headers of the response; only a question for
permission is not for the server. -/
theorem Origins.guard_cases {σ : Type} (o : Origins) (s : σ) (r : Request)
    (respond : σ → Request → σ × Answered) :
    (r.method = "OPTIONS" ∧ (o.guard s r respond).1 = s) ∨
      (o.guard s r respond).1 = (respond s r).1 ∧
        (o.guard s r respond).2.map Response.said = (respond s r).2.map Response.said := by
  unfold guard
  split
  · exact .inr ⟨rfl, rfl⟩
  · split
    · rename_i method hasked
      refine .inl ⟨?_, rfl⟩
      unfold asked? at hasked
      split at hasked
      · assumption
      · cases hasked
    · right
      obtain ⟨s', answer⟩ := respond s r
      cases answer with
      | error breakdown => exact ⟨rfl, rfl⟩
      | ok response => exact ⟨rfl, rfl⟩

namespace Service.Operation

/-- Whether an operation bears a number in the id that it gives, if it goes well. -/
def Takes (number : Nat) : Operation → Prop
  | .create id _ => id = identifier "flow" number
  | .trigger run _ _ => run = identifier "run" number
  | _ => False

/-- Whether an operation gives no id. -/
def Plain (o : Operation) : Prop :=
  (∀ id name, o ≠ .create id name) ∧ ∀ run id event, o ≠ .trigger run id event

end Service.Operation

namespace Server

open Service (Operation)

variable {s s' : Server}

/-- The servers that some history leads to. -/
inductive Reachable : Server → Prop
  | create (settings : ServerSettings) (answers : List Answer) (now : Int) :
      Reachable (create settings answers now)
  | serve {s : Server} (r : Request) : Reachable s → Reachable (s.serve r).1
  /-- The host gets on with the work, up to some point. -/
  | progress {s : Server} {host : Host} : Reachable s →
      s.service.host.engine.Continues host.engine →
      Reachable { s with service := { s.service with host } }

/-! ## What a request can do -/

/-- What a request can make of a server. -/
inductive Does (s : Server) : Server → Prop
  | nothing : Does s s
  | operation {o : Operation} (plain : o.Plain) :
      Does s { s with service := s.service.carryOut o }
  /-- Something is made, and bears the next number. -/
  | numbered {o : Operation} (takes : o.Takes (s.counter + 1)) :
      Does s { s with service := s.service.carryOut o, counter := s.counter + 1 }

namespace Does

theorem counter_le (h : Does s s') : s.counter ≤ s'.counter := by
  cases h with
  | nothing | operation => exact Nat.le_refl _
  | numbered => exact Nat.le_succ _

theorem engaged (h : Does s s') : s'.service.engaged = s.service.engaged := by
  cases h with
  | nothing => rfl
  | operation | numbered => exact Service.engaged_carryOut s.service _

end Does

/-- A body that cannot be read changes nothing. -/
theorem does_withBody {α : Type} {r : Request} {read : Schema.Reader α}
    {k : α → Server × Answered} (h : ∀ a, Does s (k a).1) : Does s (s.withBody r read k).1 := by
  unfold withBody
  dsimp only
  split
  · exact .nothing
  · exact .nothing
  · split
    · exact .nothing
    · exact h _

theorem does_listFlows (s : Server) (r : Request) : Does s (s.listFlows r).1 := by
  unfold listFlows
  dsimp only
  split
  · exact .nothing
  · split <;> exact .nothing

theorem does_createFlow (s : Server) (r : Request) : Does s (s.createFlow r).1 :=
  does_withBody fun new => .numbered (o := .create (identifier "flow" (s.counter + 1)) new.name) rfl

theorem does_trigger (s : Server) (flow : String) (r : Request) :
    Does s (s.trigger flow r).1 := by
  refine does_withBody fun fields => ?_
  split
  · exact .nothing
  · rename_i event _
    have hcareful :=
      Service.careful_trigger s.service (identifier "run" (s.counter + 1)) flow event
    dsimp only
    split
    · rename_i service run heq
      have hnumbered := Does.numbered (s := s)
        (o := .trigger (identifier "run" (s.counter + 1)) flow event) rfl
      rwa [Service.carryOut, heq] at hnumbered
    · rename_i service rejection heq
      obtain rfl : service = s.service := by
        have hsame := hcareful rejection (by rw [heq])
        rwa [heq] at hsame
      exact .nothing

/-- An operation that gives no id is all that some requests ask for. -/
theorem does_act {α : Type} {o : Operation} (ho : o.Plain) {wire : α → Value}
    {result : Service × Service.Outcome α} (h : result.1 = s.service.carryOut o) :
    Does s (s.act wire result).1 := by
  unfold act
  rw [h]
  exact .operation ho

theorem does_respondAt? {r : Request} {place : Place} {answer : Server × Answered}
    (h : s.respondAt? r place = some answer) : Does s answer.1 := by
  unfold respondAt? at h
  -- the places and their methods, in the order of the definition
  split at h
  all_goals first | obtain rfl := Option.some.inj h | cases h
  · exact .nothing
  · exact does_listFlows s r
  · exact does_createFlow s r
  · exact .nothing
  · rename_i id _
    exact does_withBody fun change =>
      does_act (o := .update id change) (by simp [Operation.Plain]) rfl
  · rename_i id _
    have hdelete : Does s { s with service := (s.service.delete id).1 } :=
      .operation (o := .delete id) (by simp [Operation.Plain])
    split
    · rename_i service _ heq
      rwa [heq] at hdelete
    · rename_i service rejection heq
      rwa [heq] at hdelete
  · rename_i id _
    exact does_act (o := .activate id) (by simp [Operation.Plain]) rfl
  · rename_i id _
    exact does_act (o := .deactivate id) (by simp [Operation.Plain]) rfl
  · exact .nothing
  · exact .nothing
  · rename_i id _
    exact does_trigger s id r
  · exact .nothing
  · exact .nothing
  · rename_i id _
    exact does_act (o := .cancelRun id) (by simp [Operation.Plain]) rfl

theorem does_respond (s : Server) (r : Request) : Does s (s.respond r).1 := by
  unfold respond
  split
  · exact .nothing
  · split
    · rename_i answer heq
      exact does_respondAt? heq
    · exact .nothing

/-- **What a request can do.** -/
theorem does_serve (s : Server) (r : Request) : Does s (s.serve r).1 := by
  rcases s.origins.guard_cases s r respond with ⟨-, hsame⟩ | ⟨hrespond, -⟩
  · rw [serve, hsame]
    exact .nothing
  · rw [serve, hrespond]
    exact does_respond s r

/-- A server after some requests. -/
def after (s : Server) (requests : List Request) : Server :=
  requests.foldl (fun s r => (s.serve r).1) s

theorem Reachable.after (h : s.Reachable) (requests : List Request) :
    (s.after requests).Reachable := by
  induction requests generalizing s with
  | nil => exact h
  | cons r requests ih => exact ih (h.serve r)

/-- A server has an engine. -/
theorem Reachable.engaged (h : s.Reachable) : s.service.engaged = true := by
  induction h with
  | create settings answers now => rfl
  | serve r _ ih => rw [(does_serve _ r).engaged, ih]
  | progress _ _ ih => exact ih

/-- The service has a history, and every id that was given bears a number that was given. -/
structure Kept (s : Server) : Prop where
  service : s.service.Reachable
  flows : ∀ id, (s.service.flows.get? id).isSome → ∃ n ≤ s.counter, id = identifier "flow" n
  runs : ∀ run, (s.service.runs.get? run).isSome → ∃ n ≤ s.counter, run = identifier "run" n

namespace Kept

/-- The next number has not been given. -/
theorem unknown (h : s.Kept) (hc : s.counter + 1 < 16 ^ 16) :
    s.service.flows.get? (identifier "flow" (s.counter + 1)) = none ∧
      s.service.runs.get? (identifier "run" (s.counter + 1)) = none := by
  have hnew {n : Nat} (hn : n ≤ s.counter) (kind : String) :
      identifier kind (s.counter + 1) ≠ identifier kind n := by
    intro heq
    have hnumber : s.counter + 1 = n := identifier_inj hc (by omega) heq
    omega
  constructor
  · by_contra hflow
    obtain ⟨n, hn, heq⟩ := h.flows _ (Option.isSome_iff_ne_none.2 hflow)
    exact hnew hn "flow" heq
  · by_contra hrun
    obtain ⟨n, hn, heq⟩ := h.runs _ (Option.isSome_iff_ne_none.2 hrun)
    exact hnew hn "run" heq

/-- An operation that takes the next number can take it. -/
theorem admitted (h : s.Kept) (hc : s.counter + 1 < 16 ^ 16) {o : Operation}
    (ho : o.Takes (s.counter + 1)) : o.Admitted s.service := by
  cases o with
  | create id name =>
    obtain rfl : id = _ := ho
    exact (h.unknown hc).1
  | trigger run id event =>
    obtain rfl : run = _ := ho
    exact (h.unknown hc).2
  | _ => trivial

theorem progress (h : s.Kept) {host : Host}
    (hp : s.service.host.engine.Continues host.engine) :
    Kept { s with service := { s.service with host } } where
  service := by
    have hstep : (Service.Step.progress host).Admitted s.service := hp
    exact h.service.take hstep
  flows := h.flows
  runs := by
    intro run hr
    refine h.runs run ?_
    rw [Service.runs, ← Service.isSome_titles] at hr ⊢
    rwa [← hp.frame]

/-- **What a request does keeps the ids apart.** -/
theorem does (h : s.Kept) (hd : Does s s') (hc : s'.counter < 16 ^ 16) : s'.Kept := by
  cases hd with
  | nothing => exact h
  | @operation o plain =>
    have hadmitted : (Service.Step.operation o).Admitted s.service := by
      cases o with
      | create id name => exact absurd rfl (plain.1 id name)
      | trigger run id event => exact absurd rfl (plain.2 run id event)
      | _ => trivial
    refine ⟨h.service.take hadmitted, fun id hid => ?_, fun run hr => ?_⟩
    · rcases Service.stored_carryOut hid with ⟨name, rfl⟩ | hid
      · exact absurd rfl (plain.1 id name)
      · exact h.flows id hid
    · rcases Service.recorded_carryOut h.service hadmitted hr with ⟨id, event, rfl⟩ | hr
      · exact absurd rfl (plain.2 run id event)
      · exact h.runs run hr
  | @numbered o takes =>
    have hadmitted : (Service.Step.operation o).Admitted s.service := h.admitted hc takes
    refine ⟨h.service.take hadmitted, fun id hid => ?_, fun run hr => ?_⟩
    · rcases Service.stored_carryOut hid with ⟨name, rfl⟩ | hid
      · exact ⟨_, Nat.le_refl _, takes⟩
      · obtain ⟨n, hn, heq⟩ := h.flows id hid
        exact ⟨n, Nat.le_succ_of_le hn, heq⟩
    · rcases Service.recorded_carryOut h.service hadmitted hr with ⟨id, event, rfl⟩ | hr
      · exact ⟨_, Nat.le_refl _, takes⟩
      · obtain ⟨n, hn, heq⟩ := h.runs run hr
        exact ⟨n, Nat.le_succ_of_le hn, heq⟩

end Kept

/-- **What goes on at a server is a history of its service.** -/
theorem Reachable.kept (h : s.Reachable) (hc : s.counter < 16 ^ 16) : s.Kept := by
  induction h with
  | create settings answers now =>
    refine ⟨.fresh _ now true, fun id hid => ?_, fun run hr => ?_⟩
    · cases hid
    · cases hr
  | @serve s r _ ih =>
    have hdoes := does_serve s r
    exact (ih (by have := hdoes.counter_le; omega)).does hdoes hc
  | progress _ hp ih => exact (ih hc).progress hp

/-- What the host does on its own are steps of the server. -/
theorem Reachable.settle (h : s.Reachable) (hc : s.counter < 16 ^ 16) : s.settle.Reachable :=
  h.progress (Host.continues_settle (h.kept hc).service.gated.coherent)

theorem Reachable.advance (h : s.Reachable) (hc : s.counter < 16 ^ 16) (micros : Int) :
    (s.advance micros).Reachable :=
  h.progress (Host.continues_advance (h.kept hc).service.gated.coherent micros)

end Server

end Campaign
