import Campaign.Proofs.Engine.Tour
/-!
# The look-ups at a node

`Node.lookups` are the paths that are looked up in the context when a node is processed: those of
its recipient and its placeholders, or those of its clauses up to the one that settles the whole.
A node fails just when one of these look-ups is faulty (`Node.fails_iff`).
-/
namespace Campaign

/-- Whether the look-up of a path is faulty. -/
def Value.FaultyAt (context : Value) (path : String) : Prop :=
  ∃ fault, context.resolve path = .error fault

namespace Template

/-- The path that a piece looks up. -/
def Piece.path? : Piece → Option String
  | char _ => none
  | placeholder path _ => some (String.ofList path)

/-- The paths of the placeholders in a text. -/
def lookups (text : String) : List String := (parse text.toList).filterMap Piece.path?

variable {context : Value}

theorem Piece.render_error_iff (p : Piece) : (∃ fault, p.render context = .error fault) ↔
    ∃ path ∈ p.path?, context.FaultyAt path := by
  cases p with
  | char c => simp [render, path?]
  | placeholder path written =>
    simp only [render, path?, Option.mem_some, exists_eq_left', Value.FaultyAt]
    split <;> simp [*]

theorem renderPieces_error_iff (ps : List Piece) :
    (∃ fault, renderPieces context ps = .error fault) ↔
      ∃ path ∈ ps.filterMap Piece.path?, context.FaultyAt path := by
  induction ps with
  | nil => simp [renderPieces]
  | cons p ps ih =>
    have hsplit : (∃ path ∈ (p :: ps).filterMap Piece.path?, context.FaultyAt path) ↔
        (∃ path ∈ p.path?, context.FaultyAt path) ∨
          ∃ path ∈ ps.filterMap Piece.path?, context.FaultyAt path := by
      cases hp : p.path? <;> simp [hp]
    rw [hsplit, ← Piece.render_error_iff, ← ih, renderPieces]
    cases p.render context with
    | error fault => simp
    | ok s => cases renderPieces context ps <;> simp

theorem render_error_iff (text : String) :
    (∃ fault, render text context = .error fault) ↔
      ∃ path ∈ lookups text, context.FaultyAt path := by
  rw [lookups, ← renderPieces_error_iff, render]
  cases renderPieces context (parse text.toList) <;> simp [Except.map]

end Template

namespace Condition

/-- The paths that clauses look up, one after the other, until one of them settles the whole. -/
def lookupsOf (junction : Junction) (context : Value) : List Clause → List String
  | [] => []
  | c :: cs =>
    match c.eval context with
    | .ok result =>
      if result = junction.settling then [c.left] else c.left :: lookupsOf junction context cs
    | .error _ => [c.left]

/-- The paths that a condition looks up. -/
def lookups (c : Condition) (context : Value) : List String :=
  lookupsOf c.junction context c.clauses

variable {context : Value}

theorem clause_error_iff (c : Clause) :
    (∃ fault, c.eval context = .error fault) ↔ context.FaultyAt c.left := by
  unfold Clause.eval Value.FaultyAt
  cases context.resolve c.left with
  | error fault => simp
  | ok found => cases found <;> simp

theorem evalClauses_error_iff (junction : Junction) (cs : List Clause) :
    (∃ fault, evalClauses junction context cs = .error fault) ↔
      ∃ path ∈ lookupsOf junction context cs, context.FaultyAt path := by
  induction cs with
  | nil => simp [evalClauses, lookupsOf]
  | cons c cs ih =>
    have hc : (∃ fault, c.eval context = .error fault) ↔ context.FaultyAt c.left :=
      clause_error_iff c
    simp only [evalClauses, lookupsOf]
    cases hres : c.eval context with
    | error fault =>
      have : context.FaultyAt c.left := hc.1 ⟨fault, hres⟩
      simp [this]
    | ok result =>
      have : ¬ context.FaultyAt c.left := fun hf => by simpa [hres] using hc.2 hf
      by_cases hs : result = junction.settling
      · simp [hs, this]
      · simp [hs, this, ih]

theorem eval_error_iff (c : Condition) :
    (∃ fault, c.eval context = .error fault) ↔
      ∃ path ∈ c.lookups context, context.FaultyAt path :=
  evalClauses_error_iff c.junction c.clauses

end Condition

namespace Action

/-- The text that an action sends, with its placeholders. -/
def text (a : Action) : String :=
  match a.body with
  | none | some "" => Engine.defaultBody
  | some body => body

/-- The paths that an action looks up. -/
def lookups (a : Action) : List String := a.recipient :: Template.lookups a.text

end Action

theorem recipient_error_iff {context : Value} (name : String) :
    (∃ fault, recipient name context = .error fault) ↔ context.FaultyAt name := by
  unfold recipient Value.FaultyAt
  split <;> simp [*]

/-- The message of an action needs its recipient and its text. -/
theorem Engine.compose_eq (a : Action) (context : Value) : Engine.compose a context =
    (recipient a.recipient context).bind fun address =>
      (Template.render a.text context).map fun body => ⟨address, body, a.template⟩ := by
  unfold Engine.compose
  cases recipient a.recipient context with
  | error fault => rfl
  | ok address =>
    simp only [Except.bind]
    split
    · rename_i fault hfault
      have hrender : Template.render a.text context = .error fault := hfault
      rw [hrender]
      rfl
    · rename_i body hbody
      have hrender : Template.render a.text context = .ok body := hbody
      rw [hrender]
      rfl

theorem Engine.compose_error_iff {context : Value} (a : Action) :
    (∃ fault, Engine.compose a context = .error fault) ↔
      ∃ path ∈ a.lookups, context.FaultyAt path := by
  have hsplit : (∃ path ∈ a.lookups, context.FaultyAt path) ↔ context.FaultyAt a.recipient ∨
      ∃ path ∈ Template.lookups a.text, context.FaultyAt path := by simp [Action.lookups]
  rw [Engine.compose_eq, hsplit, ← recipient_error_iff, ← Template.render_error_iff]
  cases recipient a.recipient context with
  | error fault => simp [Except.bind]
  | ok address => cases Template.render a.text context <;> simp [Except.bind, Except.map]

namespace Node

/-- The paths that are looked up when a node is processed. -/
def lookups (n : Node) (context : Value) : List String :=
  match n.kind, n.parseConfig with
  | .action, .ok (.action a) => a.lookups
  | .condition, .ok (.condition c) => c.lookups context
  | _, _ => []

variable {n : Node} {context : Value}

/-- A node that fails says what is wrong with a path. -/
theorem exists_fault_of_fails {failure : Failure} (h : n.outcome context = .fails failure) :
    ∃ fault : PathFault, failure = .value fault.message := by
  unfold outcome at h
  cases hk : n.kind <;> simp only [hk] at h
  case trigger => cases h
  case finish => cases h
  case action =>
    split at h
    · split at h
      · cases h
      · cases h
        exact ⟨_, rfl⟩
    · cases h
  case condition =>
    split at h
    · split at h
      · cases h
      · cases h
        exact ⟨_, rfl⟩
    · cases h
  case delay => split at h <;> cases h

/-- **A node fails just when one of its look-ups is faulty.** -/
theorem fails_iff : (∃ failure, n.outcome context = .fails failure) ↔
    ∃ path ∈ n.lookups context, context.FaultyAt path := by
  unfold outcome lookups
  cases hk : n.kind <;> simp only []
  case trigger => simp
  case finish => simp
  case delay => split <;> simp
  case action =>
    cases n.parseConfig with
    | error fault => simp
    | ok config =>
      cases config <;> simp only [← Engine.compose_error_iff]
      case action a => cases Engine.compose a context <;> simp
      all_goals simp
  case condition =>
    cases n.parseConfig with
    | error fault => simp
    | ok config =>
      cases config <;> simp only [← Condition.eval_error_iff]
      case condition c => cases c.eval context <;> simp
      all_goals simp

end Node

end Campaign
