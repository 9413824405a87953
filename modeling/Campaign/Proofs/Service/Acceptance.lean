import Campaign.Proofs.Schema.RoundTrip
import Campaign.Proofs.Service.Records
/-!
# Flows that are stored and flows that can be read

A flow can be read from a document only if its name says something.  The service asks for that when
it makes a flow, but not when it changes one (`stored_accepted`):

* all that is stored can be written and read again, but for flows without a name;
* only a change of its name to nothing leaves a flow without one, and no such change is refused.
-/
namespace Campaign

open Schema

namespace Flow

variable {f : Flow}

/-- Whether all is well with a flow but for its name. -/
structure Sound (f : Flow) : Prop where
  id : f.id ≠ ""
  nodes : ∀ n ∈ f.nodes, n.Readable
  edges : ∀ e ∈ f.edges, e.Readable
  createdAt : f.createdAt.Lawful
  updatedAt : f.updatedAt.Lawful

/-- The issue with a flow that has no name. -/
def unnamed : Issue := ⟨[.key "name"], .emptyText, .text ""⟩

theorem Sound.readable (h : f.Sound) (hname : f.name ≠ "") : f.Readable :=
  ⟨h.id, hname, h.nodes, h.edges, h.createdAt, h.updatedAt⟩

theorem Sound.read_wire (h : f.Sound) (later : Timestamp) :
    Flow.read later (f.wire .omitted) = if f.name = "" then .invalid [unnamed] else .valid f := by
  split
  · rename_i hname
    have hnodes : listOf (Node.read .document) (.list (f.nodes.map Node.wire)) = .valid f.nodes :=
      listOf_map fun n hn => Node.read_wire .document (h.nodes n hn)
    have hedges : listOf (Edge.read .document) (.list (f.edges.map (Edge.wire .omitted))) =
        .valid f.edges := listOf_map fun e he => Edge.read_wire .document (h.edges e he)
    simp [Flow.read, Flow.wire, record, Record.required, Record.optional, Record.find?, Field.plain,
      Entries.lookup_cons, someText, truth, hnodes, hedges, timestamp_wire h.createdAt,
      timestamp_wire h.updatedAt, h.id, hname]
    rfl
  · rename_i hname
    exact Flow.read_wire later (h.readable hname)

end Flow

theorem Schema.someText_eq_valid {s t : String} :
    someText (.text s) = .valid t ↔ t ≠ "" ∧ s = t := by
  by_cases hs : s = ""
  · have hread : someText (.text s) = .fail .emptyText (.text s) := by simp [someText, hs]
    refine iff_of_false (fun h => ?_) fun h => h.1 (h.2.symm.trans hs)
    cases hread.symm.trans h
  · have hread : someText (.text s) = .valid s := by simp [someText, hs]
    rw [hread, Checked.valid.injEq]
    exact ⟨fun h => ⟨h ▸ hs, h⟩, And.right⟩

namespace Service

variable {P : Flow → Prop} {s : Service} {o : Operation} {f : Flow} {steps : List Step}

/-- Whether something holds of every stored flow. -/
def Stores (P : Flow → Prop) (s : Service) : Prop := ∀ id f, s.flows.get? id = some f → P f

/-- Whether an operation makes and changes flows so that something holds of them. -/
structure Operation.Keeps (P : Flow → Prop) (now : Timestamp) (o : Operation) : Prop where
  created : ∀ id name, o = .create id name → name ≠ "" → P ⟨id, name, false, [], [], now, now⟩
  updated : ∀ id change, o = .update id change → ∀ f, P f → P (changed f change now)
  switched : ∀ f active, P f → P { f with active, updatedAt := now }

theorem Stores.create (h : s.Stores P) (hf : P f) :
    Stores P { s with flows := s.flows.create f } := by
  intro id g hg
  rw [FlowStore.get?_create] at hg
  split at hg
  · exact Option.some.inj hg ▸ hf
  · exact h id g hg

theorem Stores.store (h : s.Stores P) (hf : P f) : (s.store f).1.Stores P := by
  rcases store_cases s f with hsame | ⟨-, hstored⟩
  · rwa [hsame]
  · rw [hstored]
    exact h.create hf

theorem Stores.cancelRuns (h : s.Stores P) (id : String) : (s.cancelRuns id).Stores P := by
  intro other f hf
  rw [flows_cancelRuns] at hf
  exact h other f hf

/-- Something that operations see to holds of every stored flow after one. -/
theorem Stores.carryOut (h : s.Stores P) (hk : o.Keeps P s.now) : (s.carryOut o).Stores P := by
  cases o with
  | create id name =>
    simp only [Service.carryOut, Service.create]
    split
    · exact h
    · rename_i hread
      obtain ⟨hname, rfl⟩ := someText_eq_valid.1 (Checked.under_eq_valid.1 hread)
      exact h.create (hk.created id _ rfl hname)
  | update id change =>
    simp only [Service.carryOut, update, flow_eq]
    cases hold : s.flows.get? id with
    | none => exact h
    | some old =>
      dsimp only
      split
      · exact h
      · exact h.store (hk.updated id change rfl old (h id old hold))
  | activate id =>
    simp only [Service.carryOut, activate, flow_eq]
    cases hold : s.flows.get? id with
    | none => exact h
    | some old =>
      dsimp only
      split
      · exact h.store (hk.switched old true (h id old hold))
      · exact h
  | deactivate id =>
    simp only [Service.carryOut, deactivate, flow_eq]
    cases hold : s.flows.get? id with
    | none => exact h
    | some old => exact (h.store (hk.switched old false (h id old hold))).cancelRuns id
  | delete id =>
    simp only [Service.carryOut, delete]
    split
    · rename_i flows heq
      obtain rfl : (s.flows.delete id).1 = flows := by rw [heq]
      refine Stores.cancelRuns (fun other f hf => ?_) id
      rw [FlowStore.get?_delete] at hf
      split at hf
      · cases hf
      · exact h other f hf
    · exact h
  | trigger run id event =>
    simp only [Service.carryOut, trigger]
    split
    · split
      · exact h
      · split <;> exact h
    · exact h
  | cancelRun run =>
    simp only [Service.carryOut, Service.cancelRun]
    split
    · exact h
    · split <;> split <;> exact h

/-! ## Histories -/

/-- Whether what a step brings is well-formed, as to everything but the names of flows: an id that
is given, nodes and edges that could be read, and a moment on the clock. -/
def Step.Sound : Step → Prop
  | .operation (.create id _) => id ≠ ""
  | .operation (.update _ change) =>
    (∀ nodes ∈ change.nodes, ∀ n ∈ nodes, n.Readable) ∧
      ∀ edges ∈ change.edges, ∀ e ∈ edges, e.Readable
  | .progress host => (Timestamp.utc host.now).Lawful
  | _ => True

/-- Whether a step changes no name to nothing. -/
def Step.Naming : Step → Prop
  | .operation (.update _ change) => change.name ≠ some ""
  | _ => True

theorem Stores.take {step : Step} (h : s.Stores P)
    (hk : ∀ o, step = .operation o → o.Keeps P s.now) : (s.take step).Stores P := by
  cases step with
  | operation o => exact h.carryOut (hk o rfl)
  | progress host => exact h

theorem keeps_sound (hnow : s.now.Lawful) (ho : Step.Sound (.operation o)) :
    o.Keeps Flow.Sound s.now where
  created := by
    rintro id name rfl -
    exact ⟨ho, by simp, by simp, hnow, hnow⟩
  updated := by
    rintro id change rfl f hf
    refine ⟨hf.id, ?_, ?_, hf.createdAt, hnow⟩
    · cases hnodes : change.nodes with
      | none => simpa [changed, hnodes] using hf.nodes
      | some nodes => simpa [changed, hnodes] using ho.1 nodes hnodes
    · cases hedges : change.edges with
      | none => simpa [changed, hedges] using hf.edges
      | some edges => simpa [changed, hedges] using ho.2 edges hedges
  switched _ _ hf := ⟨hf.id, hf.nodes, hf.edges, hf.createdAt, hnow⟩

theorem keeps_name (now : Timestamp) (ho : Step.Naming (.operation o)) :
    o.Keeps (fun f => f.name ≠ "") now where
  created _ _ _ hname := hname
  updated := by
    rintro id change rfl f hf
    cases hname : change.name with
    | none => simpa [changed, hname] using hf
    | some name =>
      have hgiven : name ≠ "" := fun hnone => ho (hname.trans (congrArg some hnone))
      simpa [changed, hname] using hgiven
  switched _ _ hf := hf

/-- Whether all is well with what is stored but for names, and with the clock. -/
structure Sound (s : Service) : Prop where
  flows : s.Stores Flow.Sound
  clock : s.now.Lawful

theorem Sound.take {step : Step} (h : s.Sound) (hr : s.Reachable) (ha : step.Admitted s)
    (hs : step.Sound) : (s.take step).Sound where
  flows := by
    refine h.flows.take ?_
    rintro o rfl
    exact keeps_sound h.clock hs
  clock := by
    cases step with
    | operation o =>
      rw [Service.take, now, now_carryOut hr.gated.named ha]
      exact h.clock
    | progress host => exact hs

theorem Sound.follow (h : s.Sound) (hr : s.Reachable) (ha : s.Admits steps)
    (hs : ∀ step ∈ steps, step.Sound) : (s.follow steps).Sound := by
  induction steps generalizing s with
  | nil => exact h
  | cons step steps ih =>
    obtain ⟨hfirst, hrest⟩ := List.forall_mem_cons.1 hs
    exact ih (h.take hr ha.1 hfirst) (hr.take ha.1) ha.2 hrest

theorem names_follow (hs : ∀ step ∈ steps, step.Naming) (hf : s.Stores (fun f => f.name ≠ "")) :
    (s.follow steps).Stores fun f => f.name ≠ "" := by
  induction steps generalizing s with
  | nil => exact hf
  | cons step steps ih =>
    obtain ⟨hfirst, hrest⟩ := List.forall_mem_cons.1 hs
    refine ih hrest (hf.take ?_)
    rintro o rfl
    exact keeps_name _ hfirst

/-- No creation gives a flow without a name. -/
theorem create_unnamed (s : Service) (id : String) :
    s.create id "" = (s, .error (.invalid [Flow.unnamed])) := rfl

/-- A change of a name to nothing is made, whatever flow it is. -/
theorem update_unnamed (h : s.Reachable) {id : String} (hf : s.flows.get? id = some f) :
    s.update id ⟨some "", none, none⟩ =
      ({ s with flows := s.flows.create { f with name := "", updatedAt := s.now } },
        .ok { f with name := "", updatedAt := s.now }) := by
  obtain rfl := h.gated.named id f hf
  have hchanged : changed f ⟨some "", none, none⟩ s.now =
      { f with name := "", updatedAt := s.now } := rfl
  -- the examination has no regard to the name
  have hvalid : f.active = true →
      Report.valid (Flow.examine { f with name := "", updatedAt := s.now }) = true :=
    h.gated.sound _ f hf
  unfold update
  rw [flow_eq, hf]
  dsimp only
  rw [hchanged, if_neg (by simpa using hvalid),
    store_of_known (f := { f with name := "", updatedAt := s.now }) hf]

/-- **All that is stored can be read, but for flows without a name.**  Whatever happens to a
service, each flow that it stores is read from the document that it is written as, and is the same,
unless it has no name, which is then all that is wrong with it.  As long as no name is changed to
nothing every flow has one.  No flow is made without a name; but a change of a name to nothing is
made, whatever flow it is, and what is stored then cannot be read. -/
theorem stored_accepted (sender : Sender) (start : Int) (engaged : Bool) {steps : List Step}
    (hstart : (Timestamp.utc start).Lawful)
    (ha : Admits { host := .create sender start, engaged } steps)
    (hs : ∀ step ∈ steps, step.Sound) :
    let s := follow { host := .create sender start, engaged } steps
    (∀ id f later, s.flows.get? id = some f → f.id = id ∧ Flow.read later (f.wire .omitted) =
      if f.name = "" then .invalid [Flow.unnamed] else .valid f) ∧
    ((∀ step ∈ steps, step.Naming) →
      ∀ id f later, s.flows.get? id = some f → Flow.read later (f.wire .omitted) = .valid f) ∧
    (∀ id, s.create id "" = (s, .error (.invalid [Flow.unnamed]))) ∧
    ∀ id f, s.flows.get? id = some f → ∃ g,
      s.update id ⟨some "", none, none⟩ = ({ s with flows := s.flows.create g }, .ok g) ∧
        ∀ later, Flow.read later (g.wire .omitted) = .invalid [Flow.unnamed] := by
  intro s
  have hfresh : Reachable { host := .create sender start, engaged } := .fresh sender start engaged
  have hreach : s.Reachable := hfresh.follow ha
  have hsound : s.Sound :=
    Sound.follow ⟨fun _ _ hf => (nomatch hf), hstart⟩ hfresh ha hs
  refine ⟨fun id f later hf => ?_, fun hnames id f later hf => ?_, create_unnamed s,
    fun id f hf => ⟨_, update_unnamed hreach hf, fun later => ?_⟩⟩
  · exact ⟨hreach.gated.named id f hf, (hsound.flows id f hf).read_wire later⟩
  · have hname := names_follow (s := { host := .create sender start, engaged }) hnames
      (fun _ _ hf => nomatch hf) id f hf
    rw [(hsound.flows id f hf).read_wire later, if_neg hname]
  · have hold := hsound.flows id f hf
    have hunnamed : Flow.Sound { f with name := "", updatedAt := s.now } :=
      ⟨hold.id, hold.nodes, hold.edges, hold.createdAt, hsound.clock⟩
    rw [hunnamed.read_wire later, if_pos rfl]

theorem lawful_zero : (Timestamp.utc 0).Lawful := ⟨by decide, by decide, Timestamp.ofMinutes_zero⟩

/-- After the opening the greeting can be read as it is; so it could not when it had lost its
name. -/
theorem opening_accepted :
    let s := follow { host := .create (.mock "mail" 5) 0 } opening
    ∃ f, s.flows.get? "f" = some f ∧ Flow.read (.utc 0) (f.wire .omitted) = .valid f ∧
      ∃ g, (s.update "f" ⟨some "", none, none⟩).2 = .ok g ∧
        Flow.read (.utc 0) (g.wire .omitted) = .invalid [Flow.unnamed] := by
  have hopening : Admits { host := .create (.mock "mail" 5) 0 } opening := by
    refine ⟨rfl, trivial, trivial, admitted_trigger ?_, trivial⟩
    decide +kernel
  have hnodes : ∀ n ∈ greeting.nodes, n.Readable := by
    refine List.forall_iff_forall_mem.1 ⟨?_, ?_, ?_, ?_⟩ <;> exact ⟨by decide, by decide, rfl⟩
  have hedges : ∀ e ∈ greeting.edges, e.Readable := by
    refine List.forall_iff_forall_mem.1 ⟨?_, ?_, ?_⟩ <;> exact ⟨by decide, by decide, by decide⟩
  have hsound : ∀ step ∈ opening, step.Sound := by
    simpa [opening, Step.Sound] using ⟨hnodes, hedges⟩
  have hnaming : ∀ step ∈ opening, step.Naming := by
    simp [opening, Step.Naming]
  have hstored : ((follow { host := .create (.mock "mail" 5) 0 } opening).flows.get? "f").isSome =
      true := by decide +kernel
  obtain ⟨f, hf⟩ := Option.isSome_iff_exists.1 hstored
  obtain ⟨-, hread, -, hlost⟩ := stored_accepted (.mock "mail" 5) 0 true lawful_zero hopening hsound
  obtain ⟨g, hg, hrefused⟩ := hlost "f" f hf
  exact ⟨f, hf, hread hnaming "f" f _ hf, g, by rw [hg], hrefused _⟩

/-- **A flow that has lost its name cannot be read.**  No flow can be made without one. -/
theorem nameless_refused :
    let s : Service := { host := .create (.mock "mail" 5) 0 }
    let renamed := s.follow [.operation (.create "f" "Greeting"),
      .operation (.update "f" ⟨some "", none, none⟩)]
    s.create "f" "" = (s, .error (.invalid [Flow.unnamed])) ∧
      ∃ f, renamed.flows.get? "f" = some f ∧
        Flow.read (.utc 0) (f.wire .omitted) = .invalid [Flow.unnamed] := by
  let nameless : Flow := ⟨"f", "", false, [], [], .utc 0, .utc 0⟩
  have hsound : nameless.Sound := ⟨by decide, by simp [nameless], by simp [nameless], lawful_zero,
    lawful_zero⟩
  exact ⟨create_unnamed _ "f", nameless, rfl, hsound.read_wire _⟩

end Service

end Campaign
