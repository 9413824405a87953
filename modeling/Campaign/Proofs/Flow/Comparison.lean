import Campaign.Proofs.Flow.Condition
import Campaign.Proofs.Number.Order
/-!
# What clauses compare

A clause compares two numbers as the rational numbers are for which they stand
(`Operator.holds_of_toRat`), and two texts by their characters (`Operator.holds_text_iff`).  Nothing
else compares at all (`Operator.holds_eq_false`).  `Clause.compares` puts this together for the
clauses on one path.
-/
namespace Campaign

/-- A part stands somewhere in a whole if something, the part and something make up the whole. -/
theorem occursIn_iff (part whole : List Char) : occursIn part whole = true ↔ part <:+: whole := by
  induction whole with
  | nil => rw [occursIn, List.isEmpty_iff, List.infix_nil]
  | cons c cs ih =>
    rw [occursIn, Bool.or_eq_true, List.isPrefixOf_iff_prefix, ih, List.infix_cons_iff]

namespace Operator

variable {left : Value} {x y : Number} {p q : ℚ}

/-- What an operator says of two rational numbers. -/
def relates (p q : ℚ) : Operator → Bool
  | equals => decide (p = q)
  | contains => false
  | greater => decide (q < p)
  | less => decide (p < q)

/-- What an operator says of two texts. -/
def Matches (s t : String) : Operator → Prop
  | equals => s = t
  | contains => t.toList <:+: s.toList
  | greater | less => False

theorem holds_of_toRat (op : Operator) (hl : left.number? = some x) (hx : x.toRat? = some p)
    (hy : y.toRat? = some q) : op.holds left (.number y) = op.relates p q := by
  cases op with
  | equals => simp only [holds, hl, Option.map_some, Option.getD_some, relates,
      Number.equals_of_toRat hx hy]
  | contains => simp only [holds, relates]
  | greater => simp only [holds, hl, Option.map_some, Option.getD_some, relates,
      Number.greater_of_toRat hx hy]
  | less => simp only [holds, hl, Option.map_some, Option.getD_some, relates,
      Number.less_of_toRat hx hy]

/-- The operator between numbers for an outcome of comparing them. -/
def ofOrdering : Ordering → Operator
  | .lt => less
  | .eq => equals
  | .gt => greater

theorem relates_iff (op : Operator) :
    op ≠ contains ∧ op.relates p q = true ↔ op = ofOrdering (compare p q) := by
  cases op with
  | equals =>
    rw [relates, decide_eq_true_eq, ← compare_eq_iff_eq]
    cases compare p q <;> simp [ofOrdering]
  | contains => cases compare p q <;> simp [ofOrdering]
  | greater =>
    rw [relates, decide_eq_true_eq, ← compare_gt_iff_gt]
    cases compare p q <;> simp [ofOrdering]
  | less =>
    rw [relates, decide_eq_true_eq, ← compare_lt_iff_lt]
    cases compare p q <;> simp [ofOrdering]

/-- Just one of the operators between numbers holds of two rational numbers. -/
theorem existsUnique_relates (p q : ℚ) :
    ∃! op : Operator, op ≠ contains ∧ op.relates p q = true := by
  simp only [relates_iff]
  exact existsUnique_eq

theorem holds_text_iff (op : Operator) (s t : String) :
    op.holds (.text s) (.text t) = true ↔ op.Matches s t := by
  cases op with
  | equals => simp only [holds, beq_iff_eq, Matches]
  | contains => exact occursIn_iff t.toList s.toList
  | greater | less => simp [holds, Matches]

/-- A text and anything else do not compare, nor does what is neither a number nor a text. -/
theorem holds_eq_false (op : Operator) {right : Operand}
    (h : left.number? = none ∨ ∃ t, right = .text t)
    (htexts : ∀ s t, left = .text s → right ≠ .text t) : op.holds left right = false := by
  cases right with
  | text t =>
    cases left with
    | text s => exact absurd rfl (htexts s t rfl)
    | _ => cases op <;> rfl
  | number y =>
    have hl : left.number? = none := h.resolve_right (by simp)
    cases op <;> simp [holds, hl]

end Operator

namespace Clause

variable {context : Value} {path : String}

/-- What a clause says of what its path leads to. -/
theorem eval_of_resolve {found : Option Value} (h : context.resolve path = .ok found)
    (op : Operator) (right : Operand) : Clause.eval ⟨path, op, right⟩ context =
      .ok (found.elim false fun v => op.holds v right) := by
  cases found <;> simp only [eval, h, Option.elim]

/-- **Clauses compare exactly.**  On a path that leads to an integer or a finite float, with such a
number as the operand, just one of the clauses that compare numbers holds, and it is the one that
holds of the rational numbers themselves, however large the numbers are and of whichever kind.  With
a text as the operand, or where the path leads to something else or nowhere, a clause holds only
between two texts that are equal, or of which one stands in the other. -/
theorem compares {found : Option Value} (h : context.resolve path = .ok found)
    (right : Operand) :
    let result (op : Operator) : Except PathFault Bool := Clause.eval ⟨path, op, right⟩ context
    (∀ x y p q, found.bind Value.number? = some x → right = .number y →
      x.toRat? = some p → y.toRat? = some q →
        result .equals = .ok (decide (p = q)) ∧ result .greater = .ok (decide (q < p)) ∧
        result .less = .ok (decide (p < q)) ∧ result .contains = .ok false ∧
        ∃! op, op ≠ .contains ∧ result op = .ok true) ∧
    (found.bind Value.number? = none ∨ (∃ t, right = .text t) →
      result .greater = .ok false ∧ result .less = .ok false ∧
      (∃ b, result .equals = .ok b ∧
        (b = true ↔ ∃ s, found = some (.text s) ∧ right = .text s)) ∧
      ∃ b, result .contains = .ok b ∧
        (b = true ↔ ∃ s t, found = some (.text s) ∧ right = .text t ∧
          t.toList <:+: s.toList)) := by
  intro result
  have hresult : ∀ op, result op = .ok (found.elim false fun v => op.holds v right) :=
    fun op => eval_of_resolve h op right
  constructor
  · intro x y p q hfound hright hp hq
    obtain ⟨v, rfl, hnumber⟩ := Option.bind_eq_some_iff.1 hfound
    subst hright
    have hrelates : ∀ op, result op = .ok (op.relates p q) := by
      intro op
      rw [hresult op, ← Operator.holds_of_toRat op hnumber hp hq]
      rfl
    refine ⟨hrelates _, hrelates _, hrelates _, hrelates _, ?_⟩
    simp only [hrelates, Except.ok.injEq]
    exact Operator.existsUnique_relates p q
  · intro hother
    by_cases htexts : ∃ s t, found = some (.text s) ∧ right = .text t
    · obtain ⟨s, t, rfl, rfl⟩ := htexts
      refine ⟨hresult _, hresult _, ⟨_, hresult _, ?_⟩, ⟨_, hresult _, ?_⟩⟩
      · simp only [Option.elim, Operator.holds_text_iff, Operator.Matches]
        constructor
        · rintro rfl
          exact ⟨s, rfl, rfl⟩
        · rintro ⟨u, hs, ht⟩
          simp_all
      · simp only [Option.elim, Operator.holds_text_iff, Operator.Matches]
        constructor
        · intro hinfix
          exact ⟨s, t, rfl, rfl, hinfix⟩
        · rintro ⟨u, v, hs, ht, hinfix⟩
          simp_all
    · have hfalse : ∀ op, result op = .ok false := by
        intro op
        rw [hresult op]
        cases found with
        | none => rfl
        | some v =>
          refine congrArg Except.ok (Operator.holds_eq_false op hother ?_)
          rintro s t rfl rfl
          exact htexts ⟨s, t, rfl, rfl⟩
      refine ⟨hfalse _, hfalse _, ⟨false, hfalse _, ?_⟩, ⟨false, hfalse _, ?_⟩⟩
      · simp only [Bool.false_eq_true, false_iff]
        rintro ⟨s, hs, ht⟩
        exact htexts ⟨s, s, hs, ht⟩
      · simp only [Bool.false_eq_true, false_iff]
        rintro ⟨s, t, hs, ht, -⟩
        exact htexts ⟨s, t, hs, ht⟩

/-- An order with a number of pieces that no float is. -/
def bulk : Value := .object [("pieces", .int 9007199254740993)]

/-- The float to which that number would be rounded is less than it. -/
theorem bulk_compares :
    let nearest : Number := .float (.finite false 4503599627370496 1)
    let result (op : Operator) := Clause.eval ⟨"pieces", op, .number nearest⟩ bulk
    result .equals = .ok false ∧ result .greater = .ok true ∧ result .less = .ok false := by
  intro nearest result
  have hresolve : bulk.resolve "pieces" = .ok (some (.int 9007199254740993)) := rfl
  have hnearest : nearest.toRat? = some 9007199254740992 := by
    simp only [nearest, Number.toRat?, dyadic]
    norm_num
  obtain ⟨hequals, hgreater, hless, -⟩ := (compares hresolve (.number nearest)).1
    (.int 9007199254740993) nearest 9007199254740993 9007199254740992 rfl rfl rfl hnearest
  refine ⟨hequals.trans ?_, hgreater.trans ?_, hless.trans ?_⟩ <;> norm_num

end Clause

end Campaign
