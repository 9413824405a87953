import Campaign.Proofs.Engine.Tree
/-!
# Tours

What a walk does depends on nothing but the flow, the context and the stops from which it sets out.
`Flow.tour` gives the stops that it comes to, in order, and how it comes to a halt; `Flow.remarks`
is what it writes into the log at a stop, and `Flow.delays` the delays that begin there.

A tour explores the tree of its run (`Ledger.tour`): the stops that it leaves behind are those
behind the delays that it begins, and those that its halt leaves.
-/
namespace Campaign

/-- What an entry in a log says. -/
def LogEntry.said (e : LogEntry) : LogLevel × String := (e.level, e.message)

/-- What the entries in the log of a run say. -/
def Run.sayings (r : Run) : List (LogLevel × String) := r.log.map LogEntry.said

namespace Node

/-- What comes of processing a node. -/
def outcome (n : Node) (context : Value) : Visit :=
  match n.kind with
  | .action =>
    match n.parseConfig with
    | .ok (.action a) =>
      match Engine.compose a context with
      | .ok message => .sends message
      | .error fault => .fails (.value fault.message)
    | _ => .onward .everywhere
  | .condition =>
    match n.parseConfig with
    | .ok (.condition c) =>
      match c.eval context with
      | .ok result => .onward (.branch result)
      | .error fault => .fails (.value fault.message)
    | _ => .onward .nowhere
  | .delay =>
    match n.parseConfig with
    | .ok (.delay _) => .waits
    | _ => .onward .nowhere
  | .finish => .onward .nowhere
  | .trigger => .onward .everywhere

/-- What is written into the log when a node is processed. -/
def remarks (n : Node) (context : Value) : List (LogLevel × String) :=
  match n.kind with
  | .action =>
    match n.parseConfig with
    | .error fault => [(.warn, "ACTION node has invalid config: " ++ fault.message)]
    | .ok _ => []
  | .condition =>
    match n.parseConfig with
    | .error fault => [(.error, "CONDITION node has invalid config: " ++ fault.message)]
    | .ok (.condition c) =>
      match c.eval context with
      | .ok result => [(.info, "Condition evaluated to: " ++ if result then "true" else "false")]
      | .error _ => []
    | .ok _ => []
  | .delay =>
    match n.parseConfig with
    | .error fault => [(.error, "DELAY node has invalid config: " ++ fault.message)]
    | .ok (.delay d) =>
      [(.info, "Delaying for " ++ d.text ++ " (" ++ toString d.milliseconds ++ "ms)")]
    | .ok _ => []
  | .finish => [(.info, "Reached END node: " ++ n.label)]
  | .trigger => []

/-- What is written into the log when a node fails. -/
def complaint (n : Node) : Visit → List (LogLevel × String)
  | .fails failure => [(.error, "Error in node " ++ n.label ++ ": " ++ failure.text)]
  | _ => []

/-- The entry with which the processing of a node begins. -/
def announcement (n : Node) : LogLevel × String :=
  (.info, "Processing node: " ++ n.label ++ " (" ++ n.kind.name ++ ")")

/-- The forms that remarks can have. -/
inductive Remark (n : Node) : LogLevel × String → Prop
  | action (fault : ConfigFault) : n.parseConfig = .error fault →
      Remark n (.warn, "ACTION node has invalid config: " ++ fault.message)
  | condition (fault : ConfigFault) : n.parseConfig = .error fault →
      Remark n (.error, "CONDITION node has invalid config: " ++ fault.message)
  | delay (fault : ConfigFault) : n.parseConfig = .error fault →
      Remark n (.error, "DELAY node has invalid config: " ++ fault.message)
  | evaluated (result : Bool) :
      Remark n (.info, "Condition evaluated to: " ++ if result then "true" else "false")
  | delaying (d : Delay) : Remark n
      (.info, "Delaying for " ++ d.text ++ " (" ++ toString d.milliseconds ++ "ms)")
  | reached : Remark n (.info, "Reached END node: " ++ n.label)

theorem remark_of_mem {n : Node} {context : Value} {x : LogLevel × String}
    (h : x ∈ n.remarks context) : n.Remark x := by
  unfold remarks at h
  cases hk : n.kind <;> simp only [hk] at h
  case trigger => cases h
  case finish =>
    rw [List.mem_singleton.1 h]
    exact .reached
  case action =>
    split at h
    · rename_i fault hfault
      rw [List.mem_singleton.1 h]
      exact .action fault hfault
    · cases h
  case condition =>
    split at h
    · rename_i fault hfault
      rw [List.mem_singleton.1 h]
      exact .condition fault hfault
    · split at h
      · rename_i result _
        rw [List.mem_singleton.1 h]
        exact .evaluated result
      · cases h
    · cases h
  case delay =>
    split at h
    · rename_i fault hfault
      rw [List.mem_singleton.1 h]
      exact .delay fault hfault
    · rename_i d _
      rw [List.mem_singleton.1 h]
      exact .delaying d
    · cases h

end Node

/-- The edges that are followed behind a node, now or later, unless it fails. -/
def Visit.way? : Visit → Option Onward
  | .onward way => some way
  | .waits | .sends _ => some .everywhere
  | .fails _ => none

/-- The delay that begins with a node; `path` holds the nodes of the branch, this one included. -/
def Visit.delays (n : Node) (path : List String) : Visit → List Continuation
  | .waits => [⟨n, path⟩]
  | _ => []

namespace Node

variable {n : Node} {context : Value}

/-- Only delays begin. -/
theorem kind_of_waits (h : n.outcome context = .waits) : n.kind = .delay := by
  unfold outcome at h
  cases hk : n.kind <;> simp only [hk] at h
  case delay => rfl
  case trigger => cases h
  case finish => cases h
  case action =>
    split at h
    · split at h <;> cases h
    · cases h
  case condition =>
    split at h
    · split at h <;> cases h
    · cases h

/-- Only actions send. -/
theorem kind_of_sends {message : Message} (h : n.outcome context = .sends message) :
    n.kind = .action := by
  unfold outcome at h
  cases hk : n.kind <;> simp only [hk] at h
  case action => rfl
  case trigger => cases h
  case finish => cases h
  case condition =>
    split at h
    · split at h <;> cases h
    · cases h
  case delay => split at h <;> cases h

end Node

/-- What comes of a node agrees with the tree. -/
theorem Node.way_of_outcome {n : Node} {context : Value} {way : Onward}
    (h : (n.outcome context).way? = some way) : n.way context = way := by
  unfold outcome at h
  unfold Node.way
  cases hk : n.kind <;> simp only [hk] at h ⊢
  case trigger => simpa [Visit.way?] using h
  case finish => simpa [Visit.way?] using h
  case action =>
    split at h
    · split at h <;> simp_all [Visit.way?]
    · simpa [Visit.way?] using h
  case condition =>
    split at h
    · split at h <;> simp_all [Visit.way?]
    · simpa [Visit.way?] using h
  case delay => split at h <;> simp_all [Visit.way?]

namespace Flow

/-- What a walk writes into the log at a stop. -/
def remarks (f : Flow) (context : Value) (s : Stop) : List (LogLevel × String) :=
  match f.node? s.node with
  | none => [(.error, "Node " ++ s.node ++ " not found")]
  | some n =>
    if n.id ∈ s.path then
      [(.warn, "Node " ++ n.label ++ " already visited on this branch; branch stopped")]
    else n.announcement :: (n.remarks context ++ n.complaint (n.outcome context))

/-- The delay that begins at a stop, if one does. -/
def delays (f : Flow) (context : Value) (s : Stop) : List Continuation :=
  match f.processed? s with
  | some n => (n.outcome context).delays n (s.path ++ [n.id])
  | none => []

/-- The stops that a walk has still to come to when it has come to a halt. -/
def left (f : Flow) : Halt → List Stop
  | .sending n path rest _ => f.behind n.id path .everywhere ++ rest
  | _ => []

variable {f : Flow} {context : Value} {s : Stop} {n : Node}

theorem processed?_of_none (h : f.node? s.node = none) : f.processed? s = none := by
  simp [processed?, h]

theorem processed?_of_mem (h : f.node? s.node = some n) (hp : n.id ∈ s.path) :
    f.processed? s = none := by
  simp [processed?, h, hp]

theorem processed?_of_not_mem (h : f.node? s.node = some n) (hp : n.id ∉ s.path) :
    f.processed? s = some n := by
  simp [processed?, h, hp]

/-- A tour that comes to a stop before all else. -/
def comeTo (s : Stop) (t : List Stop × Halt) : List Stop × Halt := (s :: t.1, t.2)

/-- The tour of a walk: the stops that it comes to, and how it comes to a halt. -/
def tour (f : Flow) (context : Value) (stops : List Stop) : List Stop × Halt :=
  match stops with
  | [] => ([], .ended)
  | s :: rest =>
    match _hn : f.node? s.node with
    | none => comeTo s (tour f context rest)
    | some n =>
      if _hp : n.id ∈ s.path then comeTo s (tour f context rest)
      else
        match n.outcome context with
        | .onward way =>
          comeTo s (tour f context (f.behind n.id (s.path ++ [n.id]) way ++ rest))
        | .waits => comeTo s (tour f context rest)
        | .sends message => ([s], .sending n (s.path ++ [n.id]) rest message)
        | .fails failure => ([s], .failed failure)
termination_by f.work stops
decreasing_by
  · have := f.share_pos s.path
    simp only [work]
    omega
  · have := f.share_pos s.path
    simp only [work]
    omega
  · have := f.work_behind_lt (node?_mem _hn).1 _hp way
    rw [work_append]
    simp only [work]
    omega
  · have := f.share_pos s.path
    simp only [work]
    omega

@[simp] theorem comeTo_fst (t : List Stop × Halt) : (comeTo s t).1 = s :: t.1 := rfl

@[simp] theorem comeTo_snd (t : List Stop × Halt) : (comeTo s t).2 = t.2 := rfl

@[simp] theorem tour_nil (f : Flow) (context : Value) : f.tour context [] = ([], .ended) := by
  rw [tour]

/-- A stop that is not processed is passed by. -/
theorem tour_leaf (hs : f.processed? s = none) (rest : List Stop) :
    f.tour context (s :: rest) = comeTo s (f.tour context rest) := by
  rw [tour]
  split
  · rfl
  · rename_i n hn
    by_cases hp : n.id ∈ s.path
    · simp [hp]
    · simp [processed?_of_not_mem hn hp] at hs

/-- What becomes of a tour at a stop that is processed. -/
theorem tour_node (hs : f.processed? s = some n) (rest : List Stop) :
    f.tour context (s :: rest) =
      match n.outcome context with
      | .onward way =>
        comeTo s (f.tour context (f.behind n.id (s.path ++ [n.id]) way ++ rest))
      | .waits => comeTo s (f.tour context rest)
      | .sends message => ([s], .sending n (s.path ++ [n.id]) rest message)
      | .fails failure => ([s], .failed failure) := by
  rw [tour]
  simp only [processed?, Option.filter_eq_some_iff, decide_eq_true_eq] at hs
  split
  · rename_i hn
    simp [hn] at hs
  · rename_i n' hn
    obtain rfl : n' = n := Option.some.inj (hn.symm.trans hs.1)
    rw [dif_neg hs.2]

theorem remarks_of_none (hn : f.node? s.node = none) :
    f.remarks context s = [(.error, "Node " ++ s.node ++ " not found")] := by
  simp only [remarks, hn]

theorem remarks_of_mem (hn : f.node? s.node = some n) (hp : n.id ∈ s.path) :
    f.remarks context s =
      [(.warn, "Node " ++ n.label ++ " already visited on this branch; branch stopped")] := by
  simp only [remarks, hn, hp, if_true]

theorem remarks_of_processed (hs : f.processed? s = some n) : f.remarks context s =
    n.announcement :: (n.remarks context ++ n.complaint (n.outcome context)) := by
  simp only [processed?, Option.filter_eq_some_iff, decide_eq_true_eq] at hs
  simp only [remarks, hs.1, hs.2, if_false]

theorem delays_of_none (hs : f.processed? s = none) : f.delays context s = [] := by
  simp only [delays, hs]

theorem delays_of_processed (hs : f.processed? s = some n) :
    f.delays context s = (n.outcome context).delays n (s.path ++ [n.id]) := by
  simp only [delays, hs]

/-- Whether a node is processed at a stop and fails. -/
def FailsAt (f : Flow) (context : Value) (s : Stop) (failure : Failure) : Prop :=
  ∃ n, f.processed? s = some n ∧ n.outcome context = .fails failure

theorem not_failsAt_of_none (hs : f.processed? s = none) (failure : Failure) :
    ¬ f.FailsAt context s failure := by
  rintro ⟨n, hn, -⟩
  rw [hs] at hn
  cases hn

theorem eq_of_failsAt (hs : f.processed? s = some n) {failure : Failure}
    (h : f.FailsAt context s failure) : n.outcome context = .fails failure := by
  obtain ⟨n', hn', ho⟩ := h
  obtain rfl : n = n' := Option.some.inj (hs.symm.trans hn')
  exact ho

/-- A tour comes to its halt with a failure just where a node fails. -/
theorem tour_failed_iff {stops : List Stop} {failure : Failure} :
    (f.tour context stops).2 = .failed failure ↔
      ∃ s ∈ (f.tour context stops).1, f.FailsAt context s failure := by
  fun_induction tour f context stops with
  | case1 => simp
  | case2 s rest hn ih =>
    simp [ih, not_failsAt_of_none (processed?_of_none hn)]
  | case3 s rest n hn hp ih =>
    simp [ih, not_failsAt_of_none (processed?_of_mem hn hp)]
  | case4 s rest n hn hp way hv ih =>
    have hs := processed?_of_not_mem hn hp
    have hnot : ¬ f.FailsAt context s failure := fun h => by
      simpa [hv] using eq_of_failsAt hs h
    simp [ih, hnot]
  | case5 s rest n hn hp hv ih =>
    have hs := processed?_of_not_mem hn hp
    have hnot : ¬ f.FailsAt context s failure := fun h => by
      simpa [hv] using eq_of_failsAt hs h
    simp [ih, hnot]
  | case6 s rest n hn hp message hv =>
    have hs := processed?_of_not_mem hn hp
    simp [FailsAt, hs, hv]
  | case7 s rest n hn hp failure' hv =>
    have hs := processed?_of_not_mem hn hp
    simp [FailsAt, hs, hv]

/-- A tour comes to no stop after one at which a node fails. -/
theorem eq_nil_of_failsAt {stops before after : List Stop} {failure : Failure}
    (heq : (f.tour context stops).1 = before ++ s :: after) (h : f.FailsAt context s failure) :
    after = [] := by
  have hcome {s' : Stop} {t : List Stop × Halt} {before : List Stop}
      (hne : ¬ f.FailsAt context s' failure)
      (ih : ∀ before, t.1 = before ++ s :: after → after = [])
      (heq : (comeTo s' t).1 = before ++ s :: after) : after = [] := by
    cases before with
    | nil =>
      obtain ⟨rfl, -⟩ := List.cons.inj heq
      exact absurd h hne
    | cons first before => exact ih before (List.cons.inj heq).2
  have hlast {s' : Stop} {before : List Stop} (heq : [s'] = before ++ s :: after) :
      after = [] := by
    have hlength := congrArg List.length heq
    simp only [List.length_append, List.length_cons, List.length_nil] at hlength
    exact List.length_eq_zero_iff.1 (by omega)
  fun_induction tour f context stops generalizing before with
  | case1 => simp at heq
  | case2 s' rest hn ih =>
    exact hcome (not_failsAt_of_none (processed?_of_none hn) _) (fun _ => ih) heq
  | case3 s' rest n hn hp ih =>
    exact hcome (not_failsAt_of_none (processed?_of_mem hn hp) _) (fun _ => ih) heq
  | case4 s' rest n hn hp way hv ih =>
    refine hcome (fun hfail => ?_) (fun _ => ih) heq
    simpa [hv] using eq_of_failsAt (processed?_of_not_mem hn hp) hfail
  | case5 s' rest n hn hp hv ih =>
    refine hcome (fun hfail => ?_) (fun _ => ih) heq
    simpa [hv] using eq_of_failsAt (processed?_of_not_mem hn hp) hfail
  | case6 s' rest n hn hp message hv => exact hlast heq
  | case7 s' rest n hn hp failure' hv => exact hlast heq

/-- The stops that a tour leaves behind. -/
def leavings (f : Flow) (context : Value) (t : List Stop × Halt) : List Stop :=
  (t.1.flatMap (f.delays context)).flatMap f.beyond ++ f.left t.2

end Flow

/-- Whether a walk came to a halt because a node failed. -/
def Halt.isFailed : Halt → Bool
  | .failed _ => true
  | _ => false

theorem perm_left_comm (a b c : List Stop) : (a ++ (b ++ c)).Perm (b ++ (a ++ c)) := by
  rw [← List.append_assoc, ← List.append_assoc]
  exact List.perm_append_comm.append_right c

namespace Ledger

variable {f : Flow} {context : Value} {met rest others : List Stop} {s : Stop} {n : Node}
  {done opened : List Position} {whole : Prop}

/-- A stop that is not processed is met and leads nowhere. -/
theorem meet_leaf (h : Ledger f context met (s :: rest) done opened whole)
    (hs : f.processed? s = none) :
    ∃ p opened', Ledger f context (met ++ [s]) rest (done ++ [p]) opened' whole := by
  simpa [Flow.children, hs] using h.meet

/-- A stop that is processed is met, and what is behind its node is opened. -/
theorem meet_node (h : Ledger f context met (s :: rest) done opened whole)
    (hs : f.processed? s = some n) {way : Onward} (hw : (n.outcome context).way? = some way) :
    ∃ p opened', Ledger f context (met ++ [s])
      (f.behind n.id (s.path ++ [n.id]) way ++ rest) (done ++ [p]) opened' whole := by
  simpa [Flow.children, hs, n.way_of_outcome hw] using h.meet

/-- **A tour explores the tree of its run**, unless a node fails. -/
theorem tour {stops : List Stop}
    (h : Ledger f context met (stops ++ others) done opened whole) :
    ∃ done' opened', Ledger f context (met ++ (f.tour context stops).1)
      (f.leavings context (f.tour context stops) ++ others) (done ++ done') opened'
      (whole ∧ (f.tour context stops).2.isFailed = false) := by
  fun_induction Flow.tour f context stops generalizing met others done opened with
  | case1 => exact ⟨[], opened, by simpa [Flow.leavings, Flow.left, Halt.isFailed] using h⟩
  | case2 s rest hn ih =>
    rw [List.cons_append] at h
    obtain ⟨p, opened', h'⟩ := h.meet_leaf (Flow.processed?_of_none hn)
    obtain ⟨done', opened', h'⟩ := ih h'
    refine ⟨p :: done', opened', ?_⟩
    simpa [Flow.leavings, Flow.comeTo, Flow.delays, Flow.processed?_of_none hn] using h'
  | case3 s rest n hn hp ih =>
    rw [List.cons_append] at h
    obtain ⟨p, opened', h'⟩ := h.meet_leaf (Flow.processed?_of_mem hn hp)
    obtain ⟨done', opened', h'⟩ := ih h'
    refine ⟨p :: done', opened', ?_⟩
    simpa [Flow.leavings, Flow.comeTo, Flow.delays, Flow.processed?_of_mem hn hp] using h'
  | case4 s rest n hn hp way hv ih =>
    have hs := Flow.processed?_of_not_mem hn hp
    rw [List.cons_append] at h
    obtain ⟨p, opened', h'⟩ := h.meet_node hs (by rw [hv]; rfl)
    rw [← List.append_assoc] at h'
    obtain ⟨done', opened', h'⟩ := ih h'
    refine ⟨p :: done', opened', ?_⟩
    simpa [Flow.leavings, Flow.comeTo, Flow.delays, Visit.delays, hs, hv] using h'
  | case5 s rest n hn hp hv ih =>
    have hs := Flow.processed?_of_not_mem hn hp
    rw [List.cons_append] at h
    obtain ⟨p, opened', h'⟩ := h.meet_node hs (by rw [hv]; rfl)
    -- what is behind the delay is left for later
    obtain ⟨done', opened', h'⟩ := ih (h'.perm (perm_left_comm _ rest others))
    refine ⟨p :: done', opened', ?_⟩
    have hperm := perm_left_comm (f.leavings context (f.tour context rest))
      (f.behind n.id (s.path ++ [n.id]) .everywhere) others
    simpa [Flow.leavings, Flow.comeTo, Flow.delays, Visit.delays, Flow.beyond, hs, hv] using
      h'.perm hperm
  | case6 s rest n hn hp message hv =>
    have hs := Flow.processed?_of_not_mem hn hp
    rw [List.cons_append] at h
    obtain ⟨p, opened', h'⟩ := h.meet_node hs (by rw [hv]; rfl)
    refine ⟨[p], opened', ?_⟩
    simpa [Flow.leavings, Flow.delays, Visit.delays, Flow.left, hs, hv, Halt.isFailed] using h'
  | case7 s rest n hn hp failure hv =>
    have hs := Flow.processed?_of_not_mem hn hp
    rw [List.cons_append] at h
    obtain ⟨p, opened', h'⟩ := h.meet
    have hsub : others.Sublist (f.children context s ++ (rest ++ others)) := by
      rw [← List.append_assoc]
      exact List.sublist_append_right _ _
    obtain ⟨opened', h'⟩ := h'.drop hsub.subperm not_false
    refine ⟨[p], opened', ?_⟩
    simpa [Flow.leavings, Flow.delays, Visit.delays, Flow.left, hs, hv, Halt.isFailed] using h'

end Ledger

end Campaign
