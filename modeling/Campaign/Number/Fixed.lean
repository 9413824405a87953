import Campaign.Number.Shortest
/-!
# Floats with a chosen number of digits

`DecimalForm.write` lays out a magnitude with as many digits as asked for: after the point
(`positional`), after the first digit (`scientific`), or in all (`general`).  The decimal is the
one nearest to the exact value; of two that are equally near it is the even one.
-/
namespace Campaign

/-- How the digits of a magnitude are counted and laid out. -/
inductive DecimalForm where
  /-- The digits after the point are counted. -/
  | positional
  /-- One digit stands before the point and those after it are counted; an exponent follows. -/
  | scientific
  /-- All digits from the first that is not zero are counted, and the plainer form is taken. -/
  | general
  deriving DecidableEq

namespace Binary64

/-- The multiple of `10 ^ exponent` nearest to `num / den`, as a count of these. -/
def nearestMultiple (num den : Nat) (exponent : Int) : Nat :=
  if 0 ≤ exponent then roundHalfEven num (den * Nat.pow 10 exponent.toNat)
  else roundHalfEven (num * Nat.pow 10 (-exponent).toNat) den

/-- The decimal of exactly `count` digits nearest to `num / den`; of zero all digits are zeros. -/
def withDigits (num den count : Nat) : Decimal :=
  if num = 0 then ⟨0, 1 - (count : Int)⟩
  else
    let k := decimalPoint num den - count
    let n := nearestMultiple num den k
    if n = Nat.pow 10 count then ⟨Nat.pow 10 (count - 1), k + 1⟩ else ⟨n, k⟩

end Binary64

namespace DecimalForm

/-- The end of a numeral: a point and the digits after it.  Without digits there is a point only
where it is asked for. -/
def fraction (pointed : Bool) (ds : List Char) : List Char :=
  if ds.isEmpty && !pointed then [] else '.' :: ds

/-- Drops zeros at the end. -/
def dropZeros (ds : List Char) : List Char := (ds.reverse.dropWhile (· == '0')).reverse

/-- The decimal `n / 10 ^ places`, the zeros at its end dropped if `short`. -/
def placed (pointed short : Bool) (n places : Nat) : List Char :=
  let ds := (FloatStyle.padded (places + 1) n).toList
  let after := ds.drop (ds.length - places)
  ds.take (ds.length - places) ++ fraction pointed (if short then dropZeros after else after)

/-- A decimal of `count` digits with its exponent, the zeros at its end dropped if `short`. -/
def exponential (pointed short : Bool) (d : Decimal) (count : Nat) : List Char :=
  let ds := (FloatStyle.padded count d.digits).toList
  let after := ds.drop 1
  let e := d.exponent + count - 1
  ds.take 1 ++ fraction pointed (if short then dropZeros after else after) ++
    ('e' :: (if e < 0 then '-' else '+') :: (FloatStyle.padded 2 e.natAbs).toList)

/-- The magnitude `num / den` in the form with a number of digits; `pointed` keeps the point, and in
the general form the zeros, where they could go. -/
def write (form : DecimalForm) (pointed : Bool) (digits num den : Nat) : List Char :=
  match form with
  | positional => placed pointed false (Binary64.nearestMultiple num den (-(digits : Int))) digits
  | scientific =>
    exponential pointed false (Binary64.withDigits num den (digits + 1)) (digits + 1)
  | general =>
    let count := max digits 1
    let d := Binary64.withDigits num den count
    let e := d.exponent + count - 1
    if -4 ≤ e ∧ e < count then placed pointed (!pointed) d.digits (-d.exponent).toNat
    else exponential pointed (!pointed) d count

end DecimalForm

end Campaign
