import Campaign.Engine.State
import Campaign.Flow.Config
import Campaign.Flow.Recipient
import Campaign.Flow.Template
/-!
# Walks

A walk processes the nodes of a flow depth first, in the order of the edges, from a list of stops.
It comes to an end, fails, or waits for the reply to a message; what it then has still to do is
kept, and `Engine.walk` goes on with it.

A branch never processes a node twice, so every stop on a branch leaves fewer nodes for those
behind it, and a walk ends even in a cyclic flow.
-/
namespace Campaign

/-- Which of the edges that leave a node are followed. -/
inductive Onward where
  | everywhere
  /-- The edges taken for a result. -/
  | branch (result : Bool)
  | nowhere
  deriving DecidableEq

/-- The targets of the edges that are followed. -/
def Flow.targets (f : Flow) (id : String) : Onward → List String
  | .everywhere => f.successors id
  | .branch result => f.branch id result
  | .nowhere => []

/-- What comes of processing a node. -/
inductive Visit where
  | onward (way : Onward)
  /-- The run stays at the node until a timer fires. -/
  | waits
  /-- The run stays at the node until there is a reply to a message. -/
  | sends (message : Message)
  | fails (failure : Failure)

/-- How far a walk has come. -/
inductive Halt where
  | ended
  | failed (failure : Failure)
  /-- A message is sent at a node; the branch so far, and what is still to do. -/
  | sending (node : Node) (path : List String) (rest : List Stop) (message : Message)

namespace Engine

/-- The body of a message for which none is configured. -/
def defaultBody : String := "Default message"

/-- The message of an action in a context. -/
def compose (a : Action) (context : Value) : Except PathFault Message :=
  match recipient a.recipient context with
  | .error fault => .error fault
  | .ok address =>
    let body := match a.body with
      | none | some "" => defaultBody
      | some body => body
    match Template.render body context with
    | .error fault => .error fault
    | .ok body => .ok ⟨address, body, a.template⟩

/-- Processes an action: a faulty configuration is logged and passed over. -/
def visitAction (e : Engine) (now : Int) (run : String) (context : Value) (n : Node) :
    Engine × Visit :=
  match n.parseConfig with
  | .error fault =>
    (e.log now run .warn ("ACTION node has invalid config: " ++ fault.message) .null,
      .onward .everywhere)
  | .ok (.action a) =>
    match compose a context with
    | .ok message => (e, .sends message)
    | .error fault => (e, .fails (.value fault.message))
  | .ok _ => (e, .onward .everywhere)

/-- Processes a condition: a faulty configuration is logged and ends the branch. -/
def visitCondition (e : Engine) (now : Int) (run : String) (context : Value) (n : Node) :
    Engine × Visit :=
  match n.parseConfig with
  | .error fault =>
    (e.log now run .error ("CONDITION node has invalid config: " ++ fault.message) .null,
      .onward .nowhere)
  | .ok (.condition c) =>
    match c.eval context with
    | .ok result =>
      (e.log now run .info ("Condition evaluated to: " ++ if result then "true" else "false") .null,
        .onward (.branch result))
    | .error fault => (e, .fails (.value fault.message))
  | .ok _ => (e, .onward .nowhere)

/-- Processes a delay: a faulty configuration is logged and ends the branch. -/
def visitDelay (e : Engine) (now : Int) (run : String) (path : List String) (n : Node) :
    Engine × Visit :=
  match n.parseConfig with
  | .error fault =>
    (e.log now run .error ("DELAY node has invalid config: " ++ fault.message) .null,
      .onward .nowhere)
  | .ok (.delay d) =>
    let ms := d.milliseconds
    let e := e.log now run .info ("Delaying for " ++ d.text ++ " (" ++ toString ms ++ "ms)") .null
    let e := e.withLive run fun l => { l with outstanding := l.outstanding + 1 }
    let e := e.note
      { time := now, reporter := .scheduler, message := "Scheduling continuation"
        run := some run, node := some n.id, extra := [("delay_ms", .int ms)] }
    let number := e.timers.next
    ({ e with timers := e.timers.schedule run n.id ⟨n, path⟩ }.emit (.arm number ms), .waits)
  | .ok _ => (e, .onward .nowhere)

/-- Processes a node; `path` holds the nodes of the branch, this one included. -/
def visit (e : Engine) (now : Int) (run : String) (context : Value) (path : List String)
    (n : Node) : Engine × Visit :=
  match n.kind with
  | .action => e.visitAction now run context n
  | .condition => e.visitCondition now run context n
  | .delay => e.visitDelay now run path n
  | .finish => (e.log now run .info ("Reached END node: " ++ n.label) .null, .onward .nowhere)
  | .trigger => (e, .onward .everywhere)

/-- Notes that a node failed, unless the run has ended, and leaves it. -/
def failNode (e : Engine) (now : Int) (run : String) (n : Node) (failure : Failure) : Engine :=
  let e := if e.isLive run then
      e.log now run .error ("Error in node " ++ n.label ++ ": " ++ failure.text) .null
    else e
  e.leave run n.id

end Engine

/-- The nodes that a branch has not processed. -/
def Flow.ahead (f : Flow) (path : List String) : Nat :=
  (f.nodes.filter fun n => n.id ∉ path).length

/-- A bound on what a stop behind a path can bring: with `E` edges and `n` nodes ahead it is
`(E + 1) ^ n`. -/
def Flow.share (f : Flow) (path : List String) : Nat :=
  Nat.pow (f.edges.length + 1) (f.ahead path)

/-- A bound on what the stops of a walk can bring. -/
def Flow.work (f : Flow) : List Stop → Nat
  | [] => 0
  | stop :: stops => f.share stop.path + f.work stops

/-- The stops behind a node: the targets on the way, with the node on their path. -/
def Flow.behind (f : Flow) (id : String) (path : List String) (way : Onward) : List Stop :=
  (f.targets id way).map fun target => ⟨target, path⟩

theorem Flow.length_targets_le (f : Flow) (id : String) (way : Onward) :
    (f.targets id way).length ≤ f.edges.length := by
  cases way with
  | everywhere => simpa [targets, successors, outgoing] using List.length_filter_le _ f.edges
  | branch result =>
    simp only [targets, branch, outgoing, List.length_map]
    exact Nat.le_trans (List.length_filter_le _ _) (List.length_filter_le _ _)
  | nowhere => simp [targets]

theorem length_filter_lt {α : Type} {p q : α → Bool} {l : List α} (h : ∀ x ∈ l, p x → q x)
    {a : α} (ha : a ∈ l) (hp : ¬ p a) (hq : q a) : (l.filter p).length < (l.filter q).length := by
  induction l with
  | nil => cases ha
  | cons x l ih =>
    have hle : (l.filter p).length ≤ (l.filter q).length := by
      rw [← List.countP_eq_length_filter, ← List.countP_eq_length_filter]
      exact List.countP_mono_left fun x hx => h x (List.mem_cons_of_mem _ hx)
    rcases List.mem_cons.1 ha with rfl | ha
    · simp only [List.filter_cons, hp, hq, if_true, Bool.false_eq_true, if_false, List.length_cons]
      omega
    · have ih := ih (fun x hx => h x (List.mem_cons_of_mem _ hx)) ha
      have hx := h x List.mem_cons_self
      by_cases hpx : p x
      · simp only [List.filter_cons, hpx, hx hpx, if_true, List.length_cons]
        omega
      · by_cases hqx : q x <;>
          simp only [List.filter_cons, hpx, hqx, if_true, Bool.false_eq_true, if_false,
            List.length_cons] <;> omega

theorem Flow.ahead_append_lt (f : Flow) {n : Node} {path : List String} (hn : n ∈ f.nodes)
    (hp : n.id ∉ path) : f.ahead (path ++ [n.id]) < f.ahead path := by
  refine length_filter_lt (fun x _ h => ?_) hn (by simp) (by simpa using hp)
  simp only [List.mem_append, not_or, decide_eq_true_eq] at h ⊢
  exact h.1

theorem Flow.work_append (f : Flow) (a b : List Stop) : f.work (a ++ b) = f.work a + f.work b := by
  induction a with
  | nil => simp [work]
  | cons s a ih => simp [work, ih, Nat.add_assoc]

theorem Flow.work_behind (f : Flow) (id : String) (path : List String) (way : Onward) :
    f.work (f.behind id path way) =
      (f.targets id way).length * f.share path := by
  unfold behind
  induction f.targets id way with
  | nil => simp [work]
  | cons t ts ih => simp only [List.map_cons, work, ih, List.length_cons, Nat.succ_mul]; omega

theorem Flow.share_pos (f : Flow) (path : List String) : 0 < f.share path :=
  Nat.pow_pos (Nat.succ_pos _)

theorem Flow.work_behind_lt (f : Flow) {n : Node} {path : List String} (hn : n ∈ f.nodes)
    (hp : n.id ∉ path) (way : Onward) :
    f.work (f.behind n.id (path ++ [n.id]) way) < f.share path := by
  rw [work_behind]
  have hlt := f.ahead_append_lt hn hp
  have hpos := f.share_pos (path ++ [n.id])
  calc _ ≤ f.edges.length * f.share (path ++ [n.id]) :=
        Nat.mul_le_mul_right _ (f.length_targets_le n.id way)
    _ < (f.edges.length + 1) * f.share (path ++ [n.id]) :=
        Nat.mul_lt_mul_of_pos_right (Nat.lt_succ_self _) hpos
    _ = Nat.pow (f.edges.length + 1) (f.ahead (path ++ [n.id]) + 1) := Nat.mul_comm _ _
    _ ≤ f.share path := Nat.pow_le_pow_right (Nat.succ_pos _) hlt

theorem Flow.node?_mem {f : Flow} {id : String} {n : Node} (h : f.node? id = some n) :
    n ∈ f.nodes ∧ n.id = id :=
  ⟨List.mem_of_find?_eq_some h, by simpa using List.find?_some h⟩

namespace Engine

/-- Goes through the stops of a walk, the first first, as long as the run is live. -/
def walk (now : Int) (run : String) (flow : Flow) (context : Value) (e : Engine)
    (stops : List Stop) : Engine × Halt :=
  match stops with
  | [] => (e, .ended)
  | stop :: rest =>
    if e.isLive run then
      match _hn : flow.node? stop.node with
      | none =>
        walk now run flow context
          (e.log now run .error ("Node " ++ stop.node ++ " not found") .null) rest
      | some n =>
        if _hp : n.id ∈ stop.path then
          walk now run flow context
            (e.log now run .warn
              ("Node " ++ n.label ++ " already visited on this branch; branch stopped") .null) rest
        else
          let path := stop.path ++ [n.id]
          let e := e.log now run .info
            ("Processing node: " ++ n.label ++ " (" ++ n.kind.name ++ ")") .null
          match (e.enter run n.id).visit now run context path n with
          | (e, .onward way) =>
            walk now run flow context (e.leave run n.id) (flow.behind n.id path way ++ rest)
          | (e, .waits) => walk now run flow context e rest
          | (e, .sends message) => (e, .sending n path rest message)
          | (e, .fails failure) => (e.failNode now run n failure, .failed failure)
    else (e, .ended)
termination_by flow.work stops
decreasing_by
  · have := flow.share_pos stop.path
    simp only [Flow.work]
    omega
  · have := flow.share_pos stop.path
    simp only [Flow.work]
    omega
  · have := flow.work_behind_lt (Flow.node?_mem _hn).1 _hp way
    rw [Flow.work_append]
    simp only [Flow.work]
    omega
  · have := flow.share_pos stop.path
    simp only [Flow.work]
    omega

end Engine

end Campaign
