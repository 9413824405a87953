import Campaign.Number.Binary64
import Mathlib.Algebra.Order.Field.Power
import Mathlib.Data.Int.Log
import Mathlib.Data.Rat.Floor
import Mathlib.Tactic.Ring
/-!
# Rounding to floats

How a ratio is rounded depends on nothing but its value (`ofRatio_congr`), and on its sign only in
that the outcome has it (`ofRatio_sign`).  The value of a float is rounded to that float
(`ofRatio_ratio`); what is very large is beyond all floats (`ofRatio_of_large`), and what is very
small is rounded to zero (`ofRatio_of_small`).
-/
namespace Campaign.Binary64

variable {num den num' den' k m : Nat} {e : Int} {s : Bool}

/-! ## Logarithms -/

/-- A ratio is compared with a power of two on natural numbers. -/
theorem zpow_le_ratio_iff (hd : 0 < den) (g : ℤ) :
    (if 0 ≤ g then den * Nat.pow 2 g.toNat ≤ num else den ≤ num * Nat.pow 2 (-g).toNat) ↔
      (2 : ℚ) ^ g ≤ num / den := by
  have hden : (0 : ℚ) < den := by exact_mod_cast hd
  rw [le_div_iff₀ hden]
  split
  · rename_i hg
    obtain ⟨n, rfl⟩ := Int.eq_ofNat_of_zero_le hg
    simp only [Int.toNat_natCast, zpow_natCast, Nat.pow_eq]
    rw [mul_comm den]
    exact_mod_cast Iff.rfl
  · rename_i hg
    obtain ⟨n, rfl⟩ : ∃ n : ℕ, g = -n := ⟨(-g).toNat, by omega⟩
    have hpow : (0 : ℚ) < 2 ^ n := by positivity
    simp only [neg_neg, Int.toNat_natCast, zpow_neg, zpow_natCast, Nat.pow_eq]
    rw [← div_eq_inv_mul, div_le_iff₀ hpow]
    exact_mod_cast Iff.rfl

theorem floorLog2_eq (hn : 0 < num) (hd : 0 < den) :
    floorLog2 num den = Int.log 2 ((num : ℚ) / den) := by
  have hnum : (0 : ℚ) < num := by exact_mod_cast hn
  have hden : (0 : ℚ) < den := by exact_mod_cast hd
  have hratio : (0 : ℚ) < num / den := by positivity
  have htwo : (2 : ℚ) ≠ 0 := by norm_num
  -- the ratio lies between the powers next to the guess
  have hbelow : (2 : ℚ) ^ ((num.log2 : ℤ) - den.log2 - 1) ≤ num / den := by
    have hn2 : (2 : ℚ) ^ num.log2 ≤ num := by exact_mod_cast Nat.log2_self_le hn.ne'
    have hd2 : (den : ℚ) ≤ 2 ^ (den.log2 + 1) := by
      exact_mod_cast (Nat.lt_log2_self (n := den)).le
    rw [le_div_iff₀ hden, show ((num.log2 : ℤ) - den.log2 - 1) =
      (num.log2 : ℤ) - ((den.log2 + 1 : ℕ) : ℤ) by push_cast; ring, zpow_sub₀ htwo, zpow_natCast,
      zpow_natCast, div_mul_eq_mul_div, div_le_iff₀ (by positivity)]
    exact mul_le_mul hn2 hd2 hden.le hnum.le
  have habove : (num / den : ℚ) < 2 ^ ((num.log2 : ℤ) - den.log2 + 1) := by
    have hn2 : (num : ℚ) < 2 ^ (num.log2 + 1) := by
      exact_mod_cast Nat.lt_log2_self (n := num)
    have hd2 : (2 : ℚ) ^ den.log2 ≤ den := by exact_mod_cast Nat.log2_self_le hd.ne'
    rw [div_lt_iff₀ hden, show ((num.log2 : ℤ) - den.log2 + 1) =
      ((num.log2 + 1 : ℕ) : ℤ) - (den.log2 : ℤ) by push_cast; ring, zpow_sub₀ htwo, zpow_natCast,
      zpow_natCast, div_mul_eq_mul_div, lt_div_iff₀ (by positivity)]
    exact mul_lt_mul hn2 hd2 (by positivity) (by positivity)
  unfold floorLog2
  dsimp only
  simp only [zpow_le_ratio_iff hd]
  have hlog (x : ℤ) : (2 : ℚ) ^ x ≤ num / den ↔ x ≤ Int.log 2 ((num : ℚ) / den) := by
    simpa using Int.zpow_le_iff_le_log (b := 2) (R := ℚ) (by norm_num) (x := x) hratio
  rw [hlog] at hbelow
  rw [← not_le, hlog] at habove
  simp only [hlog]
  split <;> omega

/-- The logarithm is at least what powers of two are at most the ratio. -/
theorem le_floorLog2_iff (hn : 0 < num) (hd : 0 < den) {g : ℤ} :
    g ≤ floorLog2 num den ↔ (2 : ℚ) ^ g ≤ num / den := by
  have hratio : (0 : ℚ) < num / den := div_pos (by exact_mod_cast hn) (by exact_mod_cast hd)
  rw [floorLog2_eq hn hd]
  simpa using (Int.zpow_le_iff_le_log (b := 2) (R := ℚ) (by norm_num) (x := g) hratio).symm

theorem floorLog2_lt_iff (hn : 0 < num) (hd : 0 < den) {g : ℤ} :
    floorLog2 num den < g ↔ (num / den : ℚ) < 2 ^ g := by
  rw [← not_le, le_floorLog2_iff hn hd, not_le]

/-! ## Rounding depends on the value only -/

theorem floorLog2_mul (hn : 0 < num) (hd : 0 < den) (hk : 0 < k) :
    floorLog2 (num * k) (den * k) = floorLog2 num den := by
  have hk' : (k : ℚ) ≠ 0 := by exact_mod_cast hk.ne'
  rw [floorLog2_eq (Nat.mul_pos hn hk) (Nat.mul_pos hd hk), floorLog2_eq hn hd, Nat.cast_mul,
    Nat.cast_mul, mul_div_mul_right _ _ hk']

theorem roundHalfEven_mul (hk : 0 < k) :
    roundHalfEven (num * k) (den * k) = roundHalfEven num den := by
  have hlt : den * k < 2 * (num % den * k) ↔ den < 2 * (num % den) := by
    rw [← Nat.mul_assoc, Nat.mul_lt_mul_right hk]
  have heq : 2 * (num % den * k) = den * k ↔ 2 * (num % den) = den := by
    rw [← Nat.mul_assoc, Nat.mul_left_inj hk.ne']
  simp only [roundHalfEven, Nat.mul_div_mul_right _ _ hk, Nat.mul_mod_mul_right, hlt, heq]

/-- What is a whole number stays as it is. -/
theorem roundHalfEven_mul_self (hd : 0 < den) : roundHalfEven (m * den) den = m := by
  simp [roundHalfEven, Nat.mul_div_cancel m hd, hd.ne]

/-- What is less than half is rounded to zero. -/
theorem roundHalfEven_of_lt (h : 2 * num < den) : roundHalfEven num den = 0 := by
  have hless : num < den := by omega
  have hfar : ¬ (den < 2 * num ∨ (2 * num = den ∧ 0 % 2 = 1)) := by omega
  simp only [roundHalfEven, Nat.div_eq_of_lt hless, Nat.mod_eq_of_lt hless, if_neg hfar]

theorem ofRatio_mul (hd : 0 < den) (hk : 0 < k) :
    ofRatio s (num * k) (den * k) = ofRatio s num den := by
  rcases Nat.eq_zero_or_pos num with rfl | hn
  · simp [ofRatio]
  · have hround (a b : ℕ) : roundHalfEven (num * k * a) (den * k * b) =
        roundHalfEven (num * a) (den * b) := by
      rw [Nat.mul_right_comm num k a, Nat.mul_right_comm den k b, roundHalfEven_mul hk]
    have hleft (a : ℕ) : roundHalfEven (num * k * a) (den * k) = roundHalfEven (num * a) den := by
      simpa using hround a 1
    have hright (b : ℕ) : roundHalfEven (num * k) (den * k * b) = roundHalfEven num (den * b) := by
      simpa using hround 1 b
    simp only [ofRatio, Nat.mul_eq_zero, hn.ne', hk.ne', or_self, if_false,
      floorLog2_mul hn hd hk, hleft, hright]

/-- Ratios of one value are rounded to one float. -/
theorem ofRatio_congr (hd : 0 < den) (hd' : 0 < den') (h : num * den' = num' * den) :
    ofRatio s num den = ofRatio s num' den' := by
  rw [← ofRatio_mul hd hd', h, Nat.mul_comm den den', ofRatio_mul hd' hd]

/-- The float of the same magnitude with a sign. -/
def withSign (negative : Bool) : Binary64 → Binary64
  | nan => nan
  | infinite _ => infinite negative
  | finite _ m e => finite negative m e

theorem ofRatio_sign (s : Bool) (num den : Nat) :
    ofRatio s num den = (ofRatio false num den).withSign s := by
  unfold ofRatio
  split
  · rfl
  · dsimp only
    rw [apply_ite (withSign s)]
    rfl

/-! ## What is the value of a float -/

theorem ratio_pos (m : Nat) (e : Int) : 0 < (ratio m e).2 := by
  unfold ratio
  split
  · exact Nat.one_pos
  · exact Nat.pow_pos (by norm_num)

theorem ratio_value (m : Nat) (e : Int) :
    ((ratio m e).1 : ℚ) / (ratio m e).2 = m * 2 ^ e := by
  unfold ratio
  split
  · rename_i he
    obtain ⟨n, rfl⟩ := Int.eq_ofNat_of_zero_le he
    simp
  · rename_i he
    obtain ⟨n, rfl⟩ : ∃ n : ℕ, e = -n := ⟨(-e).toNat, by omega⟩
    simp [zpow_neg, div_eq_mul_inv]

theorem ratio_num_pos (hm : m ≠ 0) (e : Int) : 0 < (ratio m e).1 := by
  unfold ratio
  split
  · exact Nat.mul_pos (Nat.pos_of_ne_zero hm) (Nat.pow_pos (by norm_num))
  · exact Nat.pos_of_ne_zero hm

theorem floorLog2_ratio (hm : m ≠ 0) (e : Int) :
    floorLog2 (ratio m e).1 (ratio m e).2 = m.log2 + e := by
  have hlow : (m.log2 : ℤ) + e ≤ floorLog2 (ratio m e).1 (ratio m e).2 := by
    have hm2 : (2 : ℚ) ^ m.log2 ≤ m := by exact_mod_cast Nat.log2_self_le hm
    rw [le_floorLog2_iff (ratio_num_pos hm e) (ratio_pos m e), ratio_value,
      zpow_add₀ (by norm_num), zpow_natCast]
    gcongr
  have hhigh : floorLog2 (ratio m e).1 (ratio m e).2 < ((m.log2 + 1 : ℕ) : ℤ) + e := by
    have hm2 : (m : ℚ) < 2 ^ (m.log2 + 1) := by exact_mod_cast Nat.lt_log2_self (n := m)
    rw [floorLog2_lt_iff (ratio_num_pos hm e) (ratio_pos m e), ratio_value,
      zpow_add₀ (by norm_num), zpow_natCast]
    gcongr
  omega

/-- What is the value of a float already is rounded to that float. -/
theorem ofRatio_ratio (h : Canonical (finite s m e)) (hm : m ≠ 0) (s' : Bool) :
    ofRatio s' (ratio m e).1 (ratio m e).2 = finite s' m e := by
  obtain ⟨hless, hmin, hmax, hfull⟩ := h
  have hlog : m.log2 < 53 := (Nat.log2_lt hm).2 hless
  have hexponent : max (floorLog2 (ratio m e).1 (ratio m e).2 - (precision - 1 : Nat)) minExponent
      = e := by
    rw [floorLog2_ratio hm]
    have hprecision : precision - 1 = 52 := rfl
    rw [hprecision]
    rcases hfull with hfull | rfl
    · have : 52 ≤ m.log2 := (Nat.le_log2 hm).2 hfull
      omega
    · omega
  have hround : (if 0 ≤ e then roundHalfEven (ratio m e).1 ((ratio m e).2 * Nat.pow 2 e.toNat)
      else roundHalfEven ((ratio m e).1 * Nat.pow 2 (-e).toNat) (ratio m e).2) = m := by
    unfold ratio
    split
    · rw [Nat.one_mul]
      exact roundHalfEven_mul_self (Nat.pow_pos (by norm_num))
    · exact roundHalfEven_mul_self (Nat.pow_pos (by norm_num))
  unfold ofRatio
  rw [if_neg (ratio_num_pos hm e).ne']
  simp only [hexponent, hround]
  rw [if_neg hless.ne]
  exact if_neg (Int.not_lt.2 hmax)

/-- What is as large as `2 ^ 1024` is beyond all floats. -/
theorem ofRatio_of_large (hd : 0 < den) (h : 2 ^ 1024 * den ≤ num) :
    ofRatio s num den = infinite s := by
  have hn : 0 < num := Nat.lt_of_lt_of_le (Nat.mul_pos (Nat.pow_pos (by norm_num)) hd) h
  have hden : (0 : ℚ) < den := by exact_mod_cast hd
  have hlog : 1024 ≤ floorLog2 num den := by
    rw [le_floorLog2_iff hn hd, le_div_iff₀ hden]
    exact_mod_cast h
  have hexponent : maxExponent < max (floorLog2 num den - (precision - 1 : Nat)) minExponent := by
    have hprecision : precision - 1 = 52 := rfl
    have hmax : maxExponent = 971 := rfl
    omega
  -- the significand may be carried over, which makes the exponent larger still
  have hcarried (c : Prop) [Decidable c] (x y : ℕ) : maxExponent <
      (if c then (x, max (floorLog2 num den - (precision - 1 : Nat)) minExponent + 1)
        else (y, max (floorLog2 num den - (precision - 1 : Nat)) minExponent)).2 := by
    split
    · exact Int.lt_trans hexponent (Int.lt_succ _)
    · exact hexponent
  unfold ofRatio
  rw [if_neg hn.ne']
  exact if_pos (hcarried _ _ _)

/-- What is as small as `2 ^ -1076` is rounded to zero. -/
theorem ofRatio_of_small (hd : 0 < den) (h : 4 * (num * 2 ^ 1074) ≤ den) :
    ofRatio s num den = zero s := by
  rcases Nat.eq_zero_or_pos num with rfl | hn
  · rfl
  have hpos : 0 < num * 2 ^ 1074 := by positivity
  have hhalf : 2 * (num * 2 ^ 1074) < den :=
    Nat.lt_of_lt_of_le (Nat.mul_lt_mul_of_pos_right (by norm_num) hpos) h
  have hden : (0 : ℚ) < den := by exact_mod_cast hd
  have hlog : floorLog2 num den < minExponent := by
    have hmin : minExponent = -(1074 : ℕ) := rfl
    have hpow : (0 : ℚ) < 2 ^ 1074 := pow_pos two_pos _
    have hless : num * 2 ^ 1074 < den :=
      Nat.lt_of_le_of_lt (Nat.le_mul_of_pos_left _ two_pos) hhalf
    rw [floorLog2_lt_iff hn hd, hmin, zpow_neg, zpow_natCast, ← one_div,
      div_lt_div_iff₀ hden hpow, one_mul]
    exact_mod_cast hless
  have hexponent : max (floorLog2 num den - (precision - 1 : Nat)) minExponent = minExponent := by
    have hprecision : precision - 1 = 52 := rfl
    rw [hprecision]
    exact max_eq_right (by linarith)
  have hround (n : ℕ) (hn : 2 * (num * 2 ^ n) < den) : roundHalfEven (num * Nat.pow 2 n) den = 0 :=
    roundHalfEven_of_lt hn
  have hscale : (-minExponent).toNat = 1074 := rfl
  have hneg : ¬ (0 : ℤ) ≤ minExponent := by decide
  unfold ofRatio
  rw [if_neg hn.ne']
  simp only [hexponent, if_neg hneg, hscale, hround 1074 hhalf]
  rfl

end Campaign.Binary64
