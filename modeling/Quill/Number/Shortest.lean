import Quill.Number.Binary64

/-!
# Shortest decimal digits of a float

Among the decimals that read back as a given positive float, `shortest` picks one with the fewest
digits, and of those the nearest; of two that are equally near, the larger. The search goes through
the decimal grids from coarse to fine and tests the two neighbours of the float on each, in exact
arithmetic.
-/

namespace Quill.Number

/-- A non-negative number as a fraction; the denominator is never zero where it is used. -/
structure Fraction where
  num : Nat
  den : Nat

namespace Fraction

/-- The order of fractions. -/
def le (x y : Fraction) : Bool := x.num * y.den ≤ y.num * x.den

/-- Strictly below. -/
def lt (x y : Fraction) : Bool := x.num * y.den < y.num * x.den

/-- `n * base ^ e`. -/
def scale (n base : Nat) (e : Int) : Fraction :=
  if 0 ≤ e then ⟨n * base.pow e.toNat, 1⟩ else ⟨n, base.pow (-e).toNat⟩

/-- The whole part of `x / 10 ^ k`. -/
def floorAt (x : Fraction) (k : Int) : Nat :=
  if 0 ≤ k then x.num / (x.den * Nat.pow 10 k.toNat)
  else x.num * Nat.pow 10 (-k).toNat / x.den

end Fraction

/-- The value of a positive finite float, and the numbers around it that read as the same float:
those between `low` and `high`, with the ends if `closed`. -/
structure Neighbourhood where
  value : Fraction
  low : Fraction
  high : Fraction
  closed : Bool

namespace Neighbourhood

/-- The decimals around a positive finite float. The float just below a power of two is only half as
far away as the one above it. -/
def ofFloat (x : Float) : Neighbourhood :=
  let m := significand x
  let e := exponent x
  let below := if fractionField x = 0 && 1 < exponentField x then 1 else 2
  { value := .scale m 2 e
    low := .scale (4 * m - below) 2 (e - 2)
    high := .scale (4 * m + 2) 2 (e - 2)
    closed := m % 2 = 0 }

/-- Whether the decimal `d` reads back as the float. -/
def covers (b : Neighbourhood) (d : Fraction) : Bool :=
  if b.closed then b.low.le d && d.le b.high else b.low.lt d && d.lt b.high

/-- The exponent of the leading decimal digit, from -324 to 308. -/
def magnitude (b : Neighbourhood) : Int :=
  let whole := b.value.floorAt 0
  if whole ≠ 0 then (Nat.toDigits 10 whole).length - 1
  else
    match (List.range 325).find? fun (k : Nat) => b.value.floorAt (-(k : Int)) ≠ 0 with
    | some k => -(k : Int)
    | none => 0

/-- The better of the float's two neighbours on the grid of multiples of `10 ^ k`, if one of them
reads back. -/
def onGrid? (b : Neighbourhood) (k : Int) : Option Nat :=
  let d := b.value.floorAt k
  let lower := Fraction.scale d 10 k
  let upper := Fraction.scale (d + 1) 10 k
  -- the middle between the two neighbours, to see which is nearer
  let middle : Fraction := ⟨lower.num + upper.num, 2 * lower.den⟩
  match b.covers lower, b.covers upper with
  | true, true => if b.value.lt middle then some d else some (d + 1)
  | true, false => some d
  | false, true => some (d + 1)
  | false, false => none

/-- The digits, as a number, and the exponent of the last of them. -/
def digits (b : Neighbourhood) : Nat × Int :=
  let top := b.magnitude
  let grids := (List.range 17).map fun (n : Nat) => top - n
  match grids.findSome? fun k => (b.onGrid? k).map fun d => (d, k) with
  | some r => r
  | none => (0, 0)

end Neighbourhood

/-- The shortest decimal digits that read back as the positive finite float, without zeros at the
end, and the exponent of the first of them. -/
def shortest (x : Float) : List Char × Int :=
  let (n, k) := (Neighbourhood.ofFloat x).digits
  let all := Nat.toDigits 10 n
  let trimmed := (all.reverse.dropWhile (· = '0')).reverse
  (trimmed, k + all.length - 1)

end Quill.Number
