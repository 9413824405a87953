import Campaign.Flow.Condition
import Campaign.Proofs.Value.Path
/-!
# What conditions come to

A clause holds where its path leads to a value that compares as it says, and it is misled where its
path leads astray; else it does not hold (`Clause.eval_eq_true_iff`, `Clause.eval_eq_error_iff`).

The clauses of a condition are examined in order up to the first that settles the whole or is
misled (`evalClauses_eq_error_iff`, `evalClauses_eq_ok_iff`).  So a condition without misled clauses
is what the clauses are, joined as it says, in whatever order they come.  With a misled clause the
order matters just if another clause settles the whole.

`Condition.evaluates` puts this together.
-/
namespace Campaign

/-- The segments of a path. -/
def Value.segments (path : String) : List (List Char) := Text.split '.' path.toList

namespace Clause

/-- Whether a clause holds in a context. -/
def Holds (context : Value) (c : Clause) : Prop :=
  ∃ v, context.Leads (Value.segments c.left) v ∧ c.op.holds v c.right = true

/-- Whether the path of a clause leads astray in a context. -/
def Misled (context : Value) (c : Clause) : Prop :=
  ∃ segment, context.Astray (Value.segments c.left) segment

variable {context : Value} {c : Clause}

theorem eval_eq_true_iff : c.eval context = .ok true ↔ c.Holds context := by
  unfold Holds
  simp only [← Value.follow_eq_some_iff, eval, Value.resolve, Value.segments]
  cases context.follow (Text.split '.' c.left.toList) with
  | error fault => simp
  | ok found => cases found <;> simp

theorem eval_eq_error_iff : (∃ fault, c.eval context = .error fault) ↔ c.Misled context := by
  have hfollow : c.Misled context ↔
      ¬ ∃ found, context.follow (Value.segments c.left) = .ok found := by
    rw [Value.follow_ok_iff, Classical.not_not, Misled]
  rw [hfollow]
  simp only [eval, Value.resolve, Value.segments]
  cases context.follow (Text.split '.' c.left.toList) with
  | error fault => simp
  | ok found => cases found <;> simp

/-- A clause that is not misled holds or does not. -/
theorem exists_eval (h : ¬ c.Misled context) : ∃ b, c.eval context = .ok b := by
  rw [← eval_eq_error_iff] at h
  cases heval : c.eval context with
  | ok b => exact ⟨b, rfl⟩
  | error fault => exact absurd ⟨fault, heval⟩ h

end Clause

namespace Condition

variable {context : Value} {j : Junction} {cs : List Clause}

/-- Whether a clause settles a whole that is joined in some way. -/
def Settles (context : Value) (j : Junction) (c : Clause) : Prop :=
  c.eval context = .ok j.settling

/-- Whether a clause leaves open what the whole comes to. -/
def LeavesOpen (context : Value) (j : Junction) (c : Clause) : Prop :=
  c.eval context = .ok !j.settling

/-- What clauses that are joined in some way say. -/
def Joined (context : Value) : Junction → List Clause → Prop
  | .all, cs => ∀ c ∈ cs, c.Holds context
  | .any, cs => ∃ c ∈ cs, c.Holds context

/-- A clause settles the whole, leaves it open, or is misled. -/
theorem clause_cases (context : Value) (j : Junction) (c : Clause) :
    Settles context j c ∨ LeavesOpen context j c ∨ c.Misled context := by
  by_cases h : c.Misled context
  · exact .inr (.inr h)
  · obtain ⟨b, hb⟩ := Clause.exists_eval h
    rw [Settles, LeavesOpen, hb]
    cases b <;> cases j <;> simp [Junction.settling]

theorem evalClauses_cons_of_open {c : Clause} (h : LeavesOpen context j c) :
    evalClauses j context (c :: cs) = evalClauses j context cs := by
  rw [LeavesOpen] at h
  cases j <;> simp [evalClauses, h, Junction.settling]

theorem evalClauses_cons_of_settles {c : Clause} (h : Settles context j c) :
    evalClauses j context (c :: cs) = .ok j.settling := by
  rw [Settles] at h
  simp [evalClauses, h]

theorem evalClauses_cons_of_error {c : Clause} {fault : PathFault}
    (h : c.eval context = .error fault) : evalClauses j context (c :: cs) = .error fault := by
  simp [evalClauses, h]

/-- What leaves the whole open may as well not be there. -/
theorem evalClauses_append_of_open {before after : List Clause}
    (h : ∀ c ∈ before, LeavesOpen context j c) :
    evalClauses j context (before ++ after) = evalClauses j context after := by
  induction before with
  | nil => rfl
  | cons c before ih =>
    rw [List.cons_append, evalClauses_cons_of_open (h c List.mem_cons_self)]
    exact ih fun d hd => h d (List.mem_cons_of_mem c hd)

/-- Either all clauses leave the whole open, or there is a first one that does not. -/
theorem first_cases (context : Value) (j : Junction) (cs : List Clause) :
    (∀ c ∈ cs, LeavesOpen context j c) ∨ ∃ before c after, cs = before ++ c :: after ∧
      (∀ d ∈ before, LeavesOpen context j d) ∧ (Settles context j c ∨ c.Misled context) := by
  induction cs with
  | nil => exact .inl (by simp)
  | cons c cs ih =>
    have hfirst : Settles context j c ∨ c.Misled context → ∃ before d after,
        c :: cs = before ++ d :: after ∧ (∀ x ∈ before, LeavesOpen context j x) ∧
          (Settles context j d ∨ d.Misled context) := fun h => ⟨[], c, cs, rfl, by simp, h⟩
    rcases clause_cases context j c with hs | ho | hm
    · exact .inr (hfirst (.inl hs))
    · rcases ih with hall | ⟨before, d, after, rfl, hbefore, hd⟩
      · exact .inl (List.forall_mem_cons.2 ⟨ho, hall⟩)
      · exact .inr ⟨c :: before, d, after, rfl, List.forall_mem_cons.2 ⟨ho, hbefore⟩, hd⟩
    · exact .inr (hfirst (.inr hm))

/-- **Clauses are faulty where the first that does not leave the whole open is misled.** -/
theorem evalClauses_eq_error_iff {fault : PathFault} : evalClauses j context cs = .error fault ↔
    ∃ before c after, cs = before ++ c :: after ∧ (∀ d ∈ before, LeavesOpen context j d) ∧
      c.eval context = .error fault := by
  constructor
  · intro h
    rcases first_cases context j cs with hall | ⟨before, c, after, rfl, hbefore, hs | hm⟩
    · have hopen : evalClauses j context (cs ++ []) = evalClauses j context [] :=
        evalClauses_append_of_open hall
      rw [List.append_nil, h] at hopen
      cases hopen
    · rw [evalClauses_append_of_open hbefore, evalClauses_cons_of_settles hs] at h
      cases h
    · obtain ⟨fault', hfault⟩ := Clause.eval_eq_error_iff.2 hm
      rw [evalClauses_append_of_open hbefore, evalClauses_cons_of_error hfault] at h
      exact ⟨before, c, after, rfl, hbefore, hfault.trans (congrArg _ (Except.error.inj h))⟩
  · rintro ⟨before, c, after, rfl, hbefore, hc⟩
    rw [evalClauses_append_of_open hbefore, evalClauses_cons_of_error hc]

/-- Clauses of which none is misled come to what they say. -/
theorem evalClauses_of_not_misled (h : ∀ c ∈ cs, ¬ c.Misled context) :
    ∃ b, evalClauses j context cs = .ok b ∧ (b = true ↔ Joined context j cs) := by
  have hholds (c : Clause) (b : Bool) (hb : c.eval context = .ok b) :
      c.Holds context ↔ b = true := by
    rw [← Clause.eval_eq_true_iff, hb, Except.ok.injEq]
  induction cs with
  | nil =>
    refine ⟨!j.settling, rfl, ?_⟩
    cases j <;> simp [Joined, Junction.settling]
  | cons c cs ih =>
    obtain ⟨hc, hcs⟩ := List.forall_mem_cons.1 h
    obtain ⟨b, hb, hjoined⟩ := ih hcs
    rcases clause_cases context j c with hs | ho | hm
    · refine ⟨_, evalClauses_cons_of_settles hs, ?_⟩
      have hthis := hholds c _ hs
      cases j
      · simp [Joined, Junction.settling, hthis]
      · simp [Joined, Junction.settling, hthis]
    · refine ⟨b, (evalClauses_cons_of_open ho).trans hb, hjoined.trans ?_⟩
      have hthis := hholds c _ ho
      cases j
      · simp [Joined, Junction.settling, hthis]
      · simp [Joined, Junction.settling, hthis]
    · exact absurd hm hc

/-! ## The order of the clauses -/

theorem joined_perm {ds : List Clause} (h : cs.Perm ds) :
    Joined context j cs ↔ Joined context j ds := by
  cases j <;> simp only [Joined, h.mem_iff]

/-- Without misled clauses the order does not matter. -/
theorem evalClauses_perm {ds : List Clause} (h : cs.Perm ds)
    (hcs : ∀ c ∈ cs, ¬ c.Misled context) :
    evalClauses j context cs = evalClauses j context ds := by
  obtain ⟨b, hb, hjoined⟩ := evalClauses_of_not_misled (j := j) hcs
  have hds : ∀ c ∈ ds, ¬ c.Misled context := fun c hc => hcs c (h.mem_iff.2 hc)
  obtain ⟨b', hb', hjoined'⟩ := evalClauses_of_not_misled (j := j) hds
  have hiff : b = true ↔ b' = true := hjoined.trans ((joined_perm h).trans hjoined'.symm)
  rw [hb, hb', Bool.eq_iff_iff.2 hiff]

/-- A clause can be put in front of the others. -/
theorem exists_perm_cons {c : Clause} (h : c ∈ cs) : ∃ rest, cs.Perm (c :: rest) := by
  obtain ⟨before, after, rfl⟩ := List.append_of_mem h
  exact ⟨before ++ after, List.perm_middle⟩

/-- Where no clause settles the whole and one is misled, the whole is faulty. -/
theorem evalClauses_of_misled (hsettles : ∀ c ∈ cs, ¬ Settles context j c)
    (hmisled : ∃ c ∈ cs, c.Misled context) : ∃ fault, evalClauses j context cs = .error fault := by
  rcases first_cases context j cs with hall | ⟨before, c, after, heq, hbefore, hs | hm⟩
  · obtain ⟨c, hc, hm⟩ := hmisled
    obtain ⟨fault, hfault⟩ := Clause.eval_eq_error_iff.2 hm
    have hopen := hall c hc
    rw [LeavesOpen, hfault] at hopen
    cases hopen
  · exact absurd hs (hsettles c (by simp [heq]))
  · obtain ⟨fault, hfault⟩ := Clause.eval_eq_error_iff.2 hm
    exact ⟨fault, evalClauses_eq_error_iff.2 ⟨before, c, after, heq, hbefore, hfault⟩⟩

/-- **The order of clauses matters just if one is misled and another settles the whole.** -/
theorem evalClauses_order_iff :
    (∀ ds, cs.Perm ds →
      (evalClauses j context ds).toOption = (evalClauses j context cs).toOption) ↔
        (∀ c ∈ cs, ¬ c.Misled context) ∨ ∀ c ∈ cs, ¬ Settles context j c := by
  constructor
  · intro hsame
    by_cases hmisled : ∃ c ∈ cs, c.Misled context
    case neg => exact .inl fun c hc hm => hmisled ⟨c, hc, hm⟩
    obtain ⟨c, hc, hm⟩ := hmisled
    obtain ⟨fault, hfault⟩ := Clause.eval_eq_error_iff.2 hm
    refine .inr fun d hd hs => ?_
    -- with the misled clause in front the whole is faulty, with the other one it is settled
    obtain ⟨rest, hrest⟩ := exists_perm_cons hc
    obtain ⟨rest', hrest'⟩ := exists_perm_cons hd
    have hfaulty := hsame _ hrest
    have hsettled := hsame _ hrest'
    rw [evalClauses_cons_of_error hfault] at hfaulty
    rw [evalClauses_cons_of_settles hs, ← hfaulty] at hsettled
    cases hsettled
  · rintro (hnone | hsettles) ds hperm
    · rw [evalClauses_perm hperm hnone]
    · by_cases hmisled : ∃ c ∈ cs, c.Misled context
      · obtain ⟨fault, hfault⟩ := evalClauses_of_misled hsettles hmisled
        have hsettles' : ∀ d ∈ ds, ¬ Settles context j d := fun d hd =>
          hsettles d (hperm.mem_iff.2 hd)
        obtain ⟨c, hc, hm⟩ := hmisled
        obtain ⟨fault', hfault'⟩ := evalClauses_of_misled hsettles' ⟨c, hperm.mem_iff.1 hc, hm⟩
        rw [hfault, hfault']
        rfl
      · rw [evalClauses_perm hperm fun c hc hm => hmisled ⟨c, hc, hm⟩]

/-- **What conditions come to.**  A look-up finds just what its path leads to, and is faulty just
where the path leads astray.  A clause holds or not, unless it is misled.  A condition without
misled clauses is what its clauses are, joined as it says; in general it is faulty where the first
clause that does not leave the whole open is misled.  The order of the clauses makes no difference,
unless one of them is misled and another settles the whole. -/
theorem evaluates (context : Value) (c : Condition) :
    (∀ path w, context.resolve path = .ok (some w) ↔
      context.Leads (Value.segments path) w) ∧
    (∀ path fault, context.resolve path = .error fault ↔
      ∃ segment, context.Astray (Value.segments path) segment ∧
        fault = .notNumeral (String.ofList segment)) ∧
    (∀ clause : Clause, (clause.eval context = .ok true ↔ clause.Holds context) ∧
      ((∃ fault, clause.eval context = .error fault) ↔ clause.Misled context)) ∧
    ((∀ clause ∈ c.clauses, ¬ clause.Misled context) →
      ∃ b, c.eval context = .ok b ∧ (b = true ↔ Joined context c.junction c.clauses)) ∧
    (∀ fault, c.eval context = .error fault ↔
      ∃ before clause after, c.clauses = before ++ clause :: after ∧
        (∀ d ∈ before, LeavesOpen context c.junction d) ∧ clause.eval context = .error fault) ∧
    ((∀ cs, c.clauses.Perm cs →
      (eval ⟨c.junction, cs⟩ context).toOption = (c.eval context).toOption) ↔
        (∀ clause ∈ c.clauses, ¬ clause.Misled context) ∨
          ∀ clause ∈ c.clauses, ¬ Settles context c.junction clause) := by
  refine ⟨fun path w => ?_, fun path fault => ?_, fun clause => ?_, fun h => ?_, fun fault => ?_,
    ?_⟩
  · exact Value.follow_eq_some_iff
  · exact Value.follow_eq_error_iff
  · exact ⟨Clause.eval_eq_true_iff, Clause.eval_eq_error_iff⟩
  · exact evalClauses_of_not_misled h
  · exact evalClauses_eq_error_iff
  · exact evalClauses_order_iff

/-- An order of one item. -/
def parcel : Value := .object [("items", .list [.text "tea"])]

/-- Whether an item of an order is tea. -/
def isTea (item : String) : Clause := ⟨"items." ++ item, .equals, .text "tea"⟩

/-- The digits of every script name an item. -/
theorem parcel_evaluates :
    (∀ clause ∈ [isTea "0", isTea "０"], ¬ clause.Misled parcel) ∧
      Joined parcel .all [isTea "0", isTea "０"] ∧
      ∀ cs, [isTea "0", isTea "０"].Perm cs → (eval ⟨.all, cs⟩ parcel).toOption = some true := by
  obtain ⟨-, -, hclause, hjoined, -, horder⟩ := evaluates parcel ⟨.all, [isTea "0", isTea "０"]⟩
  have hsound : ∀ clause ∈ [isTea "0", isTea "０"], ¬ clause.Misled parcel := by
    intro clause hc
    have hholds : clause.eval parcel = .ok true := by
      rw [List.mem_cons, List.mem_singleton] at hc
      obtain rfl | rfl := hc
      · rfl
      · rfl
    rw [← (hclause clause).2, hholds]
    rintro ⟨fault, ⟨⟩⟩
  obtain ⟨b, hb, hiff⟩ := hjoined hsound
  have htrue : eval ⟨.all, [isTea "0", isTea "０"]⟩ parcel = .ok true := rfl
  refine ⟨hsound, hiff.1 ?_, fun cs hperm => ?_⟩
  · rw [hb] at htrue
    exact Except.ok.inj htrue
  · rw [horder.2 (.inl hsound) cs hperm, htrue]
    rfl

/-- **A digit that is no decimal digit makes a look-up faulty**, and with it a clause; whether it
does so to a condition depends on the order of the clauses. -/
theorem superscript_misleads :
    parcel.resolve "items.²" = .error (.notNumeral "²") ∧
      (isTea "²").eval parcel = .error (.notNumeral "²") ∧
      eval ⟨.any, [isTea "²", isTea "0"]⟩ parcel = .error (.notNumeral "²") ∧
      eval ⟨.any, [isTea "0", isTea "²"]⟩ parcel = .ok true :=
  ⟨rfl, rfl, rfl, rfl⟩

end Condition

end Campaign
