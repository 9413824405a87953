/-!
# Binary floating-point numbers, exactly

A `Binary64` is a datum of the IEEE 754 binary64 format, kept as the integers it stands for:
`finite s m e` is `± m · 2 ^ e`.  All arithmetic here is on `Nat` and `Int`, so every operation
has an exact meaning.

* `ofRatio` rounds a ratio of natural numbers to the nearest datum, ties to the even significand;
* `ofDecimal` rounds `d · 10 ^ k` in the same way, which is how decimal text is read;
* `Number.compare?` orders integers and floats of any size by their exact values.
-/
namespace Campaign

/-- A binary64 datum. -/
inductive Binary64 where
  /-- Not a number; the payload is not kept. -/
  | nan
  /-- An infinity of the given sign. -/
  | infinite (negative : Bool)
  /-- `± significand · 2 ^ exponent`; zero keeps its sign. -/
  | finite (negative : Bool) (significand : Nat) (exponent : Int)
  deriving DecidableEq

namespace Binary64

/-- The exponent of the subnormal data, and the least of all. -/
def minExponent : Int := -1074

/-- The largest exponent of a finite datum with a full significand. -/
def maxExponent : Int := 971

/-- The number of significant bits. -/
def precision : Nat := 53

/-- The zero of the given sign. -/
def zero (negative : Bool) : Binary64 := finite negative 0 minExponent

/-- The form in which data are kept: the significand fits the precision, and it is full unless
the exponent is the least. -/
def Canonical : Binary64 → Prop
  | nan | infinite _ => True
  | finite _ m e =>
    m < Nat.pow 2 precision ∧ minExponent ≤ e ∧ e ≤ maxExponent ∧
      (Nat.pow 2 (precision - 1) ≤ m ∨ e = minExponent)

/-- `⌊log₂ (num / den)⌋` for positive arguments. -/
def floorLog2 (num den : Nat) : Int :=
  let guess : Int := (Nat.log2 num : Int) - Nat.log2 den
  let atLeast :=
    if 0 ≤ guess then den * Nat.pow 2 guess.toNat ≤ num else den ≤ num * Nat.pow 2 (-guess).toNat
  if atLeast then guess else guess - 1

/-- `num / den` rounded to an integer, ties to even. -/
def roundHalfEven (num den : Nat) : Nat :=
  let q := num / den
  let r := num % den
  if den < 2 * r ∨ (2 * r = den ∧ q % 2 = 1) then q + 1 else q

/-- `± num / den`, rounded to the nearest datum, ties to the even significand; past the largest
finite datum it is the infinity of that sign. -/
def ofRatio (negative : Bool) (num den : Nat) : Binary64 :=
  if num = 0 then zero negative
  else
    let e := max (floorLog2 num den - (precision - 1 : Nat)) minExponent
    let m :=
      if 0 ≤ e then roundHalfEven num (den * Nat.pow 2 e.toNat)
      else roundHalfEven (num * Nat.pow 2 (-e).toNat) den
    let (m, e) := if m = Nat.pow 2 precision then (Nat.pow 2 (precision - 1), e + 1) else (m, e)
    if maxExponent < e then infinite negative else finite negative m e

/-- The number of decimal digits of `n`, at least one. -/
def decimalLength (n : Nat) : Nat := (Nat.toDigits 10 n).length

/-- `± digits · 10 ^ exponent`, rounded to the nearest datum.  Exponents far outside the range of
the format are settled before any power is formed. -/
def ofDecimal (negative : Bool) (digits : Nat) (exponent : Int) : Binary64 :=
  if digits = 0 then zero negative
  else if 400 < exponent then infinite negative
  else if exponent + decimalLength digits < -400 then zero negative
  else if 0 ≤ exponent then ofRatio negative (digits * Nat.pow 10 exponent.toNat) 1
  else ofRatio negative digits (Nat.pow 10 (-exponent).toNat)

/-- The datum nearest to an integer. -/
def ofInt (i : Int) : Binary64 :=
  if i = 0 then zero false else ofRatio (decide (i < 0)) i.natAbs 1

def isFinite : Binary64 → Bool
  | finite .. => true
  | _ => false

/-- Whether the datum is a zero of either sign. -/
def isZero : Binary64 → Bool
  | finite _ m _ => m == 0
  | _ => false

/-- The magnitude of `m · 2 ^ e` as a ratio of natural numbers. -/
def ratio (significand : Nat) (exponent : Int) : Nat × Nat :=
  if 0 ≤ exponent then (significand * Nat.pow 2 exponent.toNat, 1)
  else (significand, Nat.pow 2 (-exponent).toNat)

/-- The integer a finite datum with integral value stands for. -/
def toInt? : Binary64 → Option Int
  | finite negative m e =>
    let (num, den) := ratio m e
    if num % den = 0 then
      let n : Int := (num / den : Nat)
      some (if negative then -n else n)
    else none
  | _ => none

/-- The greatest integer not above a finite datum. -/
def floor? : Binary64 → Option Int
  | finite negative m e =>
    let (num, den) := ratio m e
    some (if negative then Int.fdiv (-(num : Int)) den else (num / den : Nat))
  | _ => none

/-- The product of a datum and a positive integer, correctly rounded. -/
def scale (k : Nat) : Binary64 → Binary64
  | finite negative m e =>
    let (num, den) := ratio m e
    ofRatio negative (num * k) den
  | x => x

/-- A finite datum divided by a positive integer, correctly rounded. -/
def shrink (k : Nat) : Binary64 → Binary64
  | finite negative m e =>
    let (num, den) := ratio m e
    ofRatio negative num (den * k)
  | x => x

/-- A finite datum in units of `1 / perUnit`, rounded to the nearest integer, ties to even. -/
def roundTo (perUnit : Nat) : Binary64 → Option Int
  | finite negative m e =>
    let (num, den) := ratio m e
    let n : Int := (roundHalfEven (num * perUnit) den : Nat)
    some (if negative then -n else n)
  | _ => none

end Binary64

/-- The order of `n₁ · 2 ^ e₁` and `n₂ · 2 ^ e₂`, computed on integers at the smaller exponent. -/
def compareDyadic (n₁ e₁ n₂ e₂ : Int) : Ordering :=
  let e := min e₁ e₂
  let power (n : Int) : Int := (Nat.pow 2 n.toNat : Nat)
  compare (n₁ * power (e₁ - e)) (n₂ * power (e₂ - e))

/-- A number: an integer of any size, or a float. -/
inductive Number where
  | int (i : Int)
  | float (x : Binary64)
  deriving DecidableEq

namespace Number

/-- The nearest place on a grid with so many places to the unit; a number that is not finite has the
place of zero. -/
def onGrid (perUnit : Nat) : Number → Int
  | int i => i * perUnit
  | float x => (x.roundTo perUnit).getD 0

/-- The side of the finite numbers on which an infinity lies. -/
def sideOf (negative : Bool) : Ordering := if negative then .lt else .gt

/-- The order of two numbers by exact value; a NaN has none. -/
def compare? (x y : Number) : Option Ordering :=
  match x, y with
  | .float .nan, _ | _, .float .nan => none
  | .float (.infinite s), .float (.infinite t) =>
    some (if s = t then .eq else sideOf s)
  | .float (.infinite s), _ => some (sideOf s)
  | _, .float (.infinite t) => some (sideOf !t)
  | .int i, .int j => some (compareDyadic i 0 j 0)
  | .int i, .float (.finite s m e) => some (compareDyadic i 0 (if s then -(m : Int) else m) e)
  | .float (.finite s m e), .int j => some (compareDyadic (if s then -(m : Int) else m) e j 0)
  | .float (.finite s m e), .float (.finite t k f) =>
    some (compareDyadic (if s then -(m : Int) else m) e (if t then -(k : Int) else k) f)

/-- Equality by exact value; a NaN equals nothing. -/
def equals (x y : Number) : Bool := compare? x y == some .eq

def greater (x y : Number) : Bool := compare? x y == some .gt

def less (x y : Number) : Bool := compare? x y == some .lt

end Number

end Campaign
