import Campaign.Number.Binary64
/-!
# The shortest decimal text of a float

`Binary64.shortest` finds the decimal with the fewest digits that reads back as the given datum,
and of those the nearest to its value.  `FloatStyle` says how a decimal is laid out; `plain` is
the layout used in every text of this library: positional from `10 ^ -4` up to `10 ^ 16`, with at
least one digit after the point, and an exponent of at least two digits elsewhere.
-/
namespace Campaign

/-- The decimal `digits · 10 ^ exponent`. -/
structure Decimal where
  digits : Nat
  exponent : Int
  deriving DecidableEq

namespace Decimal

/-- Drops the zeros at the end of the digits, at most `fuel` of them. -/
def trim : Nat → Decimal → Decimal
  | 0, d => d
  | fuel + 1, d =>
    if d.digits ≠ 0 ∧ d.digits % 10 = 0 then trim fuel ⟨d.digits / 10, d.exponent + 1⟩ else d

/-- The position of the point counted from the first digit: the value lies in
`[10 ^ (point - 1), 10 ^ point)`. -/
def point (d : Decimal) : Int := d.exponent + Binary64.decimalLength d.digits

end Decimal

namespace Binary64

/-- `p` with `10 ^ (p - 1) ≤ num / den < 10 ^ p`, for positive arguments. -/
def decimalPoint (num den : Nat) : Int :=
  if den ≤ num then decimalLength (num / den)
  else
    let j := decimalLength (den / num) - 1
    if den ≤ num * Nat.pow 10 j then 1 - (j : Int) else -(j : Int)

/-- The decimal of at most `n` digits nearest to `num / den` among the two neighbours of that
value on the grid of `n` digits that read back as `x`; ties go to the even one. -/
def onGrid (x : Binary64) (num den : Nat) (n : Nat) : Option Decimal :=
  let k := decimalPoint num den - n
  let (num, den) :=
    if 0 ≤ k then (num, den * Nat.pow 10 k.toNat) else (num * Nat.pow 10 (-k).toNat, den)
  let q := num / den
  let r := num % den
  let low := ofDecimal false q k == x
  let high := ofDecimal false (q + 1) k == x
  if low ∧ (¬ high ∨ 2 * r < den ∨ (2 * r = den ∧ q % 2 = 0)) then some ⟨q, k⟩
  else if high then some ⟨q + 1, k⟩
  else none

/-- The exact decimal value of `m · 2 ^ e`. -/
def exactDecimal (significand : Nat) (exponent : Int) : Decimal :=
  if 0 ≤ exponent then ⟨significand * Nat.pow 2 exponent.toNat, 0⟩
  else ⟨significand * Nat.pow 5 (-exponent).toNat, exponent⟩

/-- The decimal with the fewest digits that reads back as `m · 2 ^ e`, the nearest of those. -/
def shortest (significand : Nat) (exponent : Int) : Decimal :=
  let (num, den) := ratio significand exponent
  let x := finite false significand exponent
  let d := ((List.range 17).findSome? fun n => onGrid x num den (n + 1)).getD
    (exactDecimal significand exponent)
  d.trim (decimalLength d.digits)

end Binary64

/-- How a finite float is laid out. -/
structure FloatStyle where
  /-- The least position of the point written without an exponent. -/
  leastPoint : Int
  /-- The largest position of the point written without an exponent. -/
  greatestPoint : Int
  /-- The least number of digits of an exponent. -/
  exponentWidth : Nat
  /-- The texts of infinity and of not-a-number. -/
  infinity : String
  notANumber : String

namespace FloatStyle

/-- Text as it is shown to people and inserted into messages. -/
def plain : FloatStyle := ⟨-3, 16, 2, "inf", "nan"⟩

/-- Text inside JSON documents. -/
def json : FloatStyle := { plain with infinity := "Infinity", notANumber := "NaN" }

/-- A natural number in decimal, with zeros in front up to the width. -/
def padded (width n : Nat) : String :=
  let s := Nat.toDigits 10 n
  String.ofList (List.replicate (width - s.length) '0' ++ s)

/-- The layout of a decimal with `ds` as its digits and the point at position `p`. -/
def layout (style : FloatStyle) (ds : List Char) (p : Int) : String :=
  if style.leastPoint ≤ p ∧ p ≤ style.greatestPoint then
    if p ≤ 0 then "0." ++ String.ofList (List.replicate (-p).toNat '0' ++ ds)
    else if (ds.length : Int) ≤ p then
      String.ofList (ds ++ List.replicate (p.toNat - ds.length) '0') ++ ".0"
    else String.ofList (ds.take p.toNat) ++ "." ++ String.ofList (ds.drop p.toNat)
  else
    let mantissa := match ds with
      | d :: e :: es => String.ofList (d :: '.' :: e :: es)
      | ds => String.ofList ds
    let e := p - 1
    mantissa ++ "e" ++ (if e < 0 then "-" else "+") ++ padded style.exponentWidth e.natAbs

/-- The text of a float in the style. -/
def write (style : FloatStyle) : Binary64 → String
  | .nan => style.notANumber
  | .infinite negative => (if negative then "-" else "") ++ style.infinity
  | .finite negative m e =>
    let sign := if negative then "-" else ""
    if m = 0 then sign ++ "0.0"
    else
      let d := Binary64.shortest m e
      sign ++ style.layout (Nat.toDigits 10 d.digits) d.point

end FloatStyle

end Campaign
