import Campaign.Number.Shortest
import Campaign.Proofs.Number.Rounding
/-!
# The shortest text of a float and its value

A decimal is rounded as the ratio is that it stands for (`ofDecimal_eq`): the bounds at which the
exponent alone settles the outcome are outside the range of floats.  So zeros at the end of the
digits do not matter (`ofDecimal_shift`), and the shortest decimal of a float is rounded to that
float (`ofDecimal_shortest`).
-/
namespace Campaign

open Binary64

namespace Binary64

variable {digits m : Nat} {e k : Int} {s : Bool} {x : Binary64}

theorem lt_pow_decimalLength (n : Nat) : n < 10 ^ decimalLength n :=
  (Nat.length_toDigits_le_iff (by norm_num) (Nat.length_toDigits_pos)).1 le_rfl

/-- **A decimal is rounded as a ratio is.** -/
theorem ofDecimal_eq (s : Bool) (digits : Nat) (k : Int) :
    ofDecimal s digits k = ofRatio s (digits * 10 ^ k.toNat) (10 ^ (-k).toNat) := by
  unfold ofDecimal
  split
  · rename_i hzero
    simp [hzero, ofRatio]
  rename_i hdigits
  have hden : 0 < 10 ^ (-k).toNat := Nat.pow_pos (by norm_num)
  split
  · rename_i hlarge
    refine (ofRatio_of_large hden ?_).symm
    obtain ⟨n, rfl⟩ : ∃ n : ℕ, k = n + 401 := ⟨(k - 401).toNat, by omega⟩
    have hneg : (-((n : ℤ) + 401)).toNat = 0 := by omega
    have hpos : ((n : ℤ) + 401).toNat = n + 401 := by omega
    have hbound : 2 ^ 1024 ≤ 10 ^ 401 := by decide +kernel
    have hpositive : 0 < digits * 10 ^ n :=
      Nat.mul_pos (Nat.pos_of_ne_zero hdigits) (Nat.pow_pos (by norm_num))
    rw [hneg, hpos, Nat.pow_zero, Nat.mul_one, Nat.pow_add, ← Nat.mul_assoc]
    calc 2 ^ 1024 ≤ 10 ^ 401 := hbound
      _ ≤ digits * 10 ^ n * 10 ^ 401 := Nat.le_mul_of_pos_left (10 ^ 401) hpositive
  split
  · rename_i hsmall
    refine (ofRatio_of_small hden ?_).symm
    obtain ⟨n, rfl⟩ : ∃ n : ℕ, k = -(decimalLength digits + 400 + n : ℕ) :=
      ⟨(-k - decimalLength digits - 400).toNat, by omega⟩
    have hpos : (-(decimalLength digits + 400 + n : ℕ) : ℤ).toNat = 0 := by omega
    have hbound : 4 * 2 ^ 1074 ≤ 10 ^ 400 := by decide +kernel
    rw [hpos, neg_neg, Int.toNat_natCast, Nat.pow_zero, Nat.mul_one, Nat.pow_add, Nat.pow_add]
    calc 4 * (digits * 2 ^ 1074) = digits * (4 * 2 ^ 1074) := Nat.mul_left_comm _ _ _
      _ ≤ 10 ^ decimalLength digits * 10 ^ 400 :=
        Nat.mul_le_mul (lt_pow_decimalLength digits).le hbound
      _ ≤ _ := Nat.le_mul_of_pos_right _ (Nat.pow_pos (by norm_num))
  split
  · rename_i hk
    have hneg : (-k).toNat = 0 := by omega
    rw [hneg, Nat.pow_eq, Nat.pow_zero]
  · rename_i hk
    have hpos : k.toNat = 0 := by omega
    rw [hpos, Nat.pow_eq, Nat.pow_zero, Nat.mul_one]

/-- A zero at the end of the digits is one place of the point. -/
theorem ofDecimal_mul_ten (s : Bool) (digits : Nat) (k : Int) :
    ofDecimal s (digits * 10) k = ofDecimal s digits (k + 1) := by
  have hten (n : ℕ) : 0 < 10 ^ n := Nat.pow_pos (by norm_num)
  rw [ofDecimal_eq, ofDecimal_eq]
  refine ofRatio_congr (hten _) (hten _) ?_
  rcases Int.lt_or_le k 0 with hk | hk
  · obtain ⟨n, rfl⟩ : ∃ n : ℕ, k = -(n + 1 : ℕ) := ⟨(-k - 1).toNat, by omega⟩
    have hpos : (-(n + 1 : ℕ) : ℤ).toNat = 0 := by omega
    have hpos' : (-(n + 1 : ℕ) + 1 : ℤ).toNat = 0 := by omega
    have hneg : (-(-(n + 1 : ℕ) + 1) : ℤ).toNat = n := by omega
    rw [hpos, hpos', hneg, neg_neg, Int.toNat_natCast, Nat.pow_succ]
    ring
  · obtain ⟨n, rfl⟩ := Int.eq_ofNat_of_zero_le hk
    have hneg : (-(n : ℤ)).toNat = 0 := by omega
    have hneg' : (-((n : ℤ) + 1)).toNat = 0 := by omega
    have hpos : ((n : ℤ) + 1).toNat = n + 1 := by omega
    rw [hneg, hneg', hpos, Int.toNat_natCast, Nat.pow_succ]
    ring

theorem ofDecimal_shift (s : Bool) (digits j : Nat) (k : Int) :
    ofDecimal s (digits * 10 ^ j) k = ofDecimal s digits (k + j) := by
  induction j generalizing k with
  | zero => simp
  | succ j ih =>
    rw [Nat.pow_succ, ← Nat.mul_assoc, ofDecimal_mul_ten, ih]
    congr 1
    push_cast
    ring

theorem ofDecimal_sign (s : Bool) (digits : Nat) (k : Int) :
    ofDecimal s digits k = (ofDecimal false digits k).withSign s := by
  rw [ofDecimal_eq, ofDecimal_eq, ofRatio_sign]

/-! ## The shortest decimal -/

theorem ofDecimal_trim (s : Bool) (n : Nat) (d : Decimal) :
    ofDecimal s (d.trim n).digits (d.trim n).exponent = ofDecimal s d.digits d.exponent := by
  induction n generalizing d with
  | zero => rfl
  | succ n ih =>
    rw [Decimal.trim]
    split
    · rename_i hzero
      have hten : d.digits = d.digits / 10 * 10 := by omega
      rw [ih, ← ofDecimal_mul_ten, ← hten]
    · rfl

/-- What is found on a grid is rounded to the float for which it was sought. -/
theorem ofDecimal_of_onGrid {num den n : Nat} {d : Decimal} (h : onGrid x num den n = some d) :
    ofDecimal false d.digits d.exponent = x := by
  unfold onGrid at h
  generalize decimalPoint num den - n = k at h
  dsimp only at h
  generalize (if 0 ≤ k then (num, den * Nat.pow 10 k.toNat)
    else (num * Nat.pow 10 (-k).toNat, den)) = scaled at h
  split at h
  · rename_i hlow
    rw [← Option.some.inj h]
    exact beq_iff_eq.1 hlow.1
  · split at h
    · rename_i hhigh
      rw [← Option.some.inj h]
      exact beq_iff_eq.1 hhigh
    · cases h

theorem ofDecimal_exactDecimal (h : Canonical (finite s m e)) (hm : m ≠ 0) :
    ofDecimal false (exactDecimal m e).digits (exactDecimal m e).exponent = finite false m e := by
  rw [ofDecimal_eq, ← ofRatio_ratio h hm]
  refine ofRatio_congr (Nat.pow_pos (by norm_num)) (ratio_pos m e) ?_
  unfold exactDecimal ratio
  split
  · simp
  · rename_i he
    obtain ⟨n, rfl⟩ : ∃ n : ℕ, e = -n := ⟨(-e).toNat, by omega⟩
    have hpos : (-(n : ℤ)).toNat = 0 := by omega
    simp only [hpos, neg_neg, Int.toNat_natCast, Nat.pow_eq, Nat.pow_zero, Nat.mul_one]
    rw [show 10 = 5 * 2 from rfl, Nat.mul_pow, Nat.mul_assoc]

/-- **The shortest decimal of a float is rounded to that float.** -/
theorem ofDecimal_shortest (h : Canonical (finite s m e)) (hm : m ≠ 0) (s' : Bool) :
    ofDecimal s' (shortest m e).digits (shortest m e).exponent = finite s' m e := by
  have hread : ofDecimal false (shortest m e).digits (shortest m e).exponent =
      finite false m e := by
    unfold shortest
    dsimp only
    rw [ofDecimal_trim]
    cases hgrid : (List.range 17).findSome? fun n =>
        onGrid (finite false m e) (ratio m e).1 (ratio m e).2 (n + 1) with
    | none => exact ofDecimal_exactDecimal h hm
    | some d =>
      obtain ⟨n, -, hn⟩ := List.exists_of_findSome?_eq_some hgrid
      exact ofDecimal_of_onGrid hn
  rw [ofDecimal_sign, hread]
  rfl

theorem digits_shortest (h : Canonical (finite s m e)) (hm : m ≠ 0) :
    (shortest m e).digits ≠ 0 := by
  intro hzero
  have hread := ofDecimal_shortest h hm false
  rw [hzero, ofDecimal_eq, Nat.zero_mul] at hread
  exact hm (Binary64.finite.inj hread).2.1.symm

end Binary64

end Campaign
