import Campaign.Number.Binary64
import Mathlib.Algebra.Order.Field.Power
import Mathlib.Data.Rat.Cast.Order
import Mathlib.Order.Compare
import Mathlib.Tactic.NormNum
import Mathlib.Tactic.Ring
/-!
# The order of numbers

A number that is not beyond all bounds stands for a rational number (`Number.toRat?`), an integer
for itself and a float for `± m · 2 ^ e`.  `compare?_of_toRat` says that numbers of any kind and any
size are ordered as the rational numbers are for which they stand: nothing is rounded first.
-/
namespace Campaign

/-- The rational number `n · 2 ^ e`. -/
def dyadic (n e : ℤ) : ℚ := n * 2 ^ e

/-- At a smaller exponent the significand is larger. -/
theorem dyadic_eq {e f : ℤ} (h : f ≤ e) (n : ℤ) :
    dyadic n e = ((n * (Nat.pow 2 (e - f).toNat : ℕ) : ℤ) : ℚ) * 2 ^ f := by
  have htwo : (2 : ℚ) ≠ 0 := by norm_num
  have hpower : (2 : ℚ) ^ e = 2 ^ (e - f).toNat * 2 ^ f := by
    rw [← zpow_natCast, ← zpow_add₀ htwo]
    congr 1
    omega
  rw [dyadic, hpower, Nat.pow_eq]
  push_cast
  ring

/-- The order of `n₁ · 2 ^ e₁` and `n₂ · 2 ^ e₂` is that of the rational numbers. -/
theorem compareDyadic_eq (n₁ e₁ n₂ e₂ : ℤ) :
    compareDyadic n₁ e₁ n₂ e₂ = compare (dyadic n₁ e₁) (dyadic n₂ e₂) := by
  have hscale : (0 : ℚ) < 2 ^ min e₁ e₂ := zpow_pos (by norm_num) _
  rw [dyadic_eq (min_le_left e₁ e₂), dyadic_eq (min_le_right e₁ e₂), ← cmp_eq_compare,
    cmp_mul_pos_right hscale, Int.cast_strictMono.cmp_map_eq, cmp_eq_compare]
  rfl

namespace Number

/-- The rational number for which a number stands; a float that is not finite stands for none. -/
def toRat? : Number → Option ℚ
  | int i => some i
  | float (.finite negative m e) => some (dyadic (if negative then -(m : ℤ) else m) e)
  | float _ => none

variable {x y : Number} {p q : ℚ}

theorem dyadic_zero (i : ℤ) : dyadic i 0 = i := by simp [dyadic]

/-- What stands for a rational number is an integer or a finite float, and in either case it is kept
as a significand and an exponent. -/
theorem toRat?_cases (h : x.toRat? = some p) :
    (∃ i : ℤ, x = .int i ∧ p = dyadic i 0) ∨ ∃ negative m e,
      x = .float (.finite negative m e) ∧ p = dyadic (if negative then -(m : ℤ) else m) e := by
  cases x with
  | int i => exact .inl ⟨i, rfl, by rw [dyadic_zero]; exact (Option.some.inj h).symm⟩
  | float x =>
    cases x with
    | nan => cases h
    | infinite negative => cases h
    | finite negative m e => exact .inr ⟨negative, m, e, rfl, (Option.some.inj h).symm⟩

/-- **Numbers are ordered as the rational numbers are for which they stand.** -/
theorem compare?_of_toRat (hx : x.toRat? = some p) (hy : y.toRat? = some q) :
    x.compare? y = some (compare p q) := by
  rcases toRat?_cases hx with ⟨i, rfl, rfl⟩ | ⟨s, m, e, rfl, rfl⟩ <;>
    rcases toRat?_cases hy with ⟨j, rfl, rfl⟩ | ⟨t, k, f, rfl, rfl⟩ <;>
      simp only [compare?, compareDyadic_eq]

theorem equals_of_toRat (hx : x.toRat? = some p) (hy : y.toRat? = some q) :
    x.equals y = decide (p = q) := by
  rw [equals, compare?_of_toRat hx hy, Bool.eq_iff_iff, beq_iff_eq, Option.some.injEq,
    decide_eq_true_eq, compare_eq_iff_eq]

theorem greater_of_toRat (hx : x.toRat? = some p) (hy : y.toRat? = some q) :
    x.greater y = decide (q < p) := by
  rw [greater, compare?_of_toRat hx hy, Bool.eq_iff_iff, beq_iff_eq, Option.some.injEq,
    decide_eq_true_eq, compare_gt_iff_gt]

theorem less_of_toRat (hx : x.toRat? = some p) (hy : y.toRat? = some q) :
    x.less y = decide (p < q) := by
  rw [less, compare?_of_toRat hx hy, Bool.eq_iff_iff, beq_iff_eq, Option.some.injEq,
    decide_eq_true_eq, compare_lt_iff_lt]

end Number

end Campaign
