import Campaign.Engine.Worth
import Mathlib.Data.List.Perm.Subperm
/-!
# The tree of a run

A flow and a context make a tree of stops: at its top are the targets behind the first trigger, and
below a stop that is processed are the targets behind its node.  A stop whose node is missing or is
on its path already is a leaf.  A place in the tree is a `Position`, the turnings that lead there,
the last first; parallel edges lead to positions of their own.

A run explores this tree.  `Ledger` says how far it has come: it has met the stops at some
positions, each once and after the one above it, and it has still to meet those at others.

* `Ledger.meet` meets a stop and opens those below it;
* `Ledger.drop` gives up some that are open;
* `Ledger.mem_of_stopAt` finds every position met when none is open and none was given up.
-/
namespace Campaign

/-- The edges that are followed behind a node. -/
def Node.way (n : Node) (context : Value) : Onward :=
  match n.kind with
  | .action | .trigger => .everywhere
  | .condition =>
    match n.parseConfig with
    | .ok (.condition c) =>
      match c.eval context with
      | .ok result => .branch result
      | .error _ => .nowhere
    | _ => .nowhere
  | .delay =>
    match n.parseConfig with
    | .ok (.delay _) => .everywhere
    | _ => .nowhere
  | .finish => .nowhere

/-- The turnings that lead to a place in the tree, the last first. -/
abbrev Position := List Nat

namespace Flow

variable (f : Flow) (context : Value)

/-- The node that is processed at a stop, if one is. -/
def processed? (s : Stop) : Option Node := (f.node? s.node).filter fun n => n.id ∉ s.path

/-- The stops below a stop. -/
def children (s : Stop) : List Stop :=
  match f.processed? s with
  | some n => f.behind n.id (s.path ++ [n.id]) (n.way context)
  | none => []

/-- The stops below a position. -/
def below : Position → List Stop
  | [] => f.roots
  | i :: p =>
    match (below p)[i]? with
    | some s => f.children context s
    | none => []

/-- The stop at a position. -/
def stopAt : Position → Option Stop
  | [] => none
  | i :: p => (f.below context p)[i]?

variable {f context} {p : Position} {s : Stop}

/-- A node that is processed at a stop is the one that the stop is for, and new on its path. -/
theorem processed?_spec {n : Node} (h : f.processed? s = some n) :
    n ∈ f.nodes ∧ n.id = s.node ∧ s.node ∉ s.path := by
  simp only [processed?, Option.filter_eq_some_iff, decide_eq_true_eq] at h
  obtain ⟨hn, hid⟩ := node?_mem h.1
  exact ⟨hn, hid, hid ▸ h.2⟩

theorem below_of_stopAt (h : f.stopAt context p = some s) :
    f.below context p = f.children context s := by
  cases p with
  | nil => cases h
  | cons i p =>
    simp only [stopAt] at h
    simp only [below, h]

theorem stopAt_isSome_of_below {i : Nat} (h : i < (f.below context p).length) :
    p = [] ∨ (f.stopAt context p).isSome := by
  cases p with
  | nil => exact .inl rfl
  | cons j p =>
    refine .inr ?_
    simp only [below] at h
    simp only [stopAt]
    split at h
    · simp [*]
    · simp at h

/-- The positions right below a position. -/
def offspring (f : Flow) (context : Value) (p : Position) : List Position :=
  (List.range (f.below context p).length).map fun i => i :: p

theorem mem_offspring {q : Position} : q ∈ f.offspring context p ↔
    ∃ i < (f.below context p).length, q = i :: p := by
  simp [offspring, eq_comm]

theorem nodup_offspring (f : Flow) (context : Value) (p : Position) :
    (f.offspring context p).Nodup :=
  List.Pairwise.map _ (fun i j h => by simpa using h) List.nodup_range

theorem map_stopAt_offspring (f : Flow) (context : Value) (p : Position) :
    (f.offspring context p).map (f.stopAt context) = (f.below context p).map some := by
  refine List.ext_getElem (by simp [offspring]) fun i h₁ h₂ => ?_
  simp [offspring, stopAt]

end Flow

/-- Whether no position comes before the one above it. -/
def Descending (positions : List Position) : Prop :=
  ∀ before p after, positions = before ++ p :: after → p.tail = [] ∨ p.tail ∈ before

theorem descending_nil : Descending [] := by
  intro before p after h
  simp at h

theorem Descending.concat {done : List Position} {p : Position} (h : Descending done)
    (hp : p.tail = [] ∨ p.tail ∈ done) : Descending (done ++ [p]) := by
  intro before q after heq
  rcases List.append_eq_append_iff.1 heq with ⟨as, rfl, has⟩ | ⟨bs, rfl, hbs⟩
  · cases as with
    | nil =>
      obtain ⟨rfl, -⟩ := List.cons_eq_cons.1 has
      simpa using hp
    | cons a as => simp at has
  · cases bs with
    | nil =>
      obtain ⟨rfl, -⟩ := List.cons_eq_cons.1 hbs
      simpa using hp
    | cons b bs =>
      obtain ⟨rfl, -⟩ := List.cons_eq_cons.1 hbs
      exact h before q bs rfl

theorem Descending.parent {done : List Position} {p : Position} (h : Descending done)
    (hp : p ∈ done) : p.tail = [] ∨ p.tail ∈ done := by
  obtain ⟨before, after, rfl⟩ := List.append_of_mem hp
  exact (h before p after rfl).imp_right (List.mem_append_left _)

/-- How far the tree is explored: the stops that were met are at the positions `done`, in order, and
those still open at the positions `opened`.  Where the exploration is whole, nothing below what was
met has been given up. -/
structure Ledger (f : Flow) (context : Value) (met rest : List Stop)
    (done opened : List Position) (whole : Prop) : Prop where
  nodup : (done ++ opened).Nodup
  met : done.map (f.stopAt context) = met.map some
  rest : (opened.map (f.stopAt context)).Perm (rest.map some)
  descending : Descending done
  parents : ∀ p ∈ opened, p.tail = [] ∨ p.tail ∈ done
  covers : whole → ∀ i p, (p = [] ∨ p ∈ done) → i < (f.below context p).length →
    i :: p ∈ done ++ opened

namespace Ledger

variable {f : Flow} {context : Value} {met stops stops' : List Stop} {s : Stop}
  {done opened : List Position} {whole whole' : Prop}

/-- At first everything at the top is open. -/
theorem start (f : Flow) (context : Value) :
    Ledger f context [] f.roots [] (f.offspring context []) True where
  nodup := f.nodup_offspring context []
  met := rfl
  rest := by
    rw [Flow.map_stopAt_offspring]
    rfl
  descending := descending_nil
  parents := by
    intro p hp
    obtain ⟨i, -, rfl⟩ := Flow.mem_offspring.1 hp
    exact .inl rfl
  covers := by
    rintro - i p (rfl | hp) hi
    · exact Flow.mem_offspring.2 ⟨i, hi, rfl⟩
    · cases hp

theorem perm (h : Ledger f context met stops done opened whole) (hp : stops.Perm stops') :
    Ledger f context met stops' done opened whole :=
  { h with rest := h.rest.trans (hp.map some) }

theorem mono (h : Ledger f context met stops done opened whole) (hw : whole' → whole) :
    Ledger f context met stops done opened whole' :=
  { h with covers := h.covers ∘ hw }

/-- Some of what is open may be given up. -/
theorem drop (h : Ledger f context met stops done opened whole) (hs : stops'.Subperm stops)
    (hw : ¬ whole') : ∃ opened', Ledger f context met stops' done opened' whole' := by
  obtain ⟨kept, hkept, hsub⟩ := hs
  obtain ⟨l, hl, hsub⟩ := (hsub.map some).subperm.trans h.rest.symm.subperm
  obtain ⟨opened', hsub', rfl⟩ := List.sublist_map_iff.1 hsub
  exact ⟨opened', h.nodup.sublist (hsub'.append_left done), h.met, hl.trans (hkept.map some),
    h.descending,
    fun p hp => h.parents p (hsub'.subset hp), fun hw' => absurd hw' hw⟩

/-- What lies below a position comes after it. -/
theorem mem_done_of_child (h : Ledger f context met stops done opened whole) {i : Nat}
    {p : Position} (hi : i :: p ∈ done ++ opened) (hp : p ≠ []) : p ∈ done := by
  rcases List.mem_append.1 hi with hd | ho
  · exact (h.descending.parent hd).resolve_left hp
  · exact (h.parents _ ho).resolve_left hp

/-- An open stop is met, and those below it are opened. -/
theorem meet (h : Ledger f context met (s :: stops) done opened whole) :
    ∃ p opened', Ledger f context (met ++ [s]) (f.children context s ++ stops) (done ++ [p])
      opened' whole := by
  obtain ⟨p, hp, hstop⟩ : ∃ p ∈ opened, f.stopAt context p = some s := by
    have hmem : some s ∈ opened.map (f.stopAt context) := h.rest.symm.subset (by simp)
    simpa using hmem
  have hne : p ≠ [] := by
    rintro rfl
    cases hstop
  have hbelow := Flow.below_of_stopAt hstop
  have hperm : opened.Perm (p :: opened.erase p) := List.perm_cons_erase hp
  have hold : (done ++ [p] ++ opened.erase p).Perm (done ++ opened) := by
    rw [List.append_assoc]
    exact hperm.symm.append_left done
  have hfresh : p ∉ done := fun hd => (List.nodup_append.1 h.nodup).2.2 p hd p hp rfl
  refine ⟨p, opened.erase p ++ f.offspring context p, ?_, ?_, ?_, h.descending.concat
    (h.parents p hp), ?_, ?_⟩
  · rw [← List.append_assoc]
    refine List.nodup_append.2 ⟨hold.nodup_iff.2 h.nodup, f.nodup_offspring context p, ?_⟩
    rintro q hq r hr rfl
    obtain ⟨i, -, rfl⟩ := Flow.mem_offspring.1 hr
    exact hfresh (h.mem_done_of_child (hold.mem_iff.1 hq) hne)
  · simp [h.met, hstop]
  · rw [List.map_append, Flow.map_stopAt_offspring, hbelow, List.map_append]
    refine .trans List.perm_append_comm (List.Perm.append_left _ ?_)
    have hopen := (hperm.map (f.stopAt context)).symm.trans h.rest
    rw [List.map_cons, List.map_cons, hstop] at hopen
    exact hopen.cons_inv
  · intro q hq
    rcases List.mem_append.1 hq with hq | hq
    · exact (h.parents q (List.mem_of_mem_erase hq)).imp_right (List.mem_append_left _)
    · obtain ⟨i, -, rfl⟩ := Flow.mem_offspring.1 hq
      exact .inr (by simp)
  · intro hw i q hq hi
    rw [← List.append_assoc, List.mem_append]
    by_cases hqp : q = p
    · exact .inr (hqp ▸ Flow.mem_offspring.2 ⟨i, hqp ▸ hi, rfl⟩)
    · refine .inl (hold.mem_iff.2 (h.covers hw i q (hq.imp_right fun hq => ?_) hi))
      simpa [hqp] using hq

/-- **When nothing is open and nothing was given up, every stop of the tree has been met.** -/
theorem mem_of_stopAt (h : Ledger f context met [] done opened whole) (hw : whole) {p : Position}
    (hp : (f.stopAt context p).isSome) : p ∈ done := by
  have hopened : opened = [] := by simpa using h.rest
  induction p with
  | nil => simp [Flow.stopAt] at hp
  | cons i p ih =>
    have hi : i < (f.below context p).length := by
      simpa [Flow.stopAt] using hp
    simpa [hopened] using h.covers hw i p ((Flow.stopAt_isSome_of_below hi).imp_right ih) hi

end Ledger

end Campaign
