/-!
# Floats as integers times powers of two

A finite float is `significand * 2 ^ exponent` up to its sign. The remainder of two floats is exact,
so it is worked out on the integers.
-/

namespace Quill.Number

/-- The bits of the significand that are stored. -/
def fractionField (x : Float) : Nat := x.toBits.toNat % Nat.pow 2 52

/-- The exponent as it is stored: 0 for the floats nearest to zero, 2047 for what is not finite. -/
def exponentField (x : Float) : Nat := x.toBits.toNat / Nat.pow 2 52 % Nat.pow 2 11

/-- The integer that a finite float is a multiple of a power of two by, its sign left out. -/
def significand (x : Float) : Nat :=
  if exponentField x = 0 then fractionField x else Nat.pow 2 52 + fractionField x

/-- The exponent of that power of two. -/
def exponent (x : Float) : Int := ((max 1 (exponentField x) : Nat) : Int) - 1075

/-- The remainder of the division of `x` by `y` cut toward zero, with the sign of `x`. It is not a
number when `x` is infinite or `y` is zero. -/
def remainder (x y : Float) : Float :=
  if x.isNaN || y.isNaN || x.isInf || y == 0.0 then 0.0 / 0.0
  else if y.isInf then x
  else
    let e := min (exponent x) (exponent y)
    let a := significand x * Nat.pow 2 (exponent x - e).toNat
    let b := significand y * Nat.pow 2 (exponent y - e).toNat
    let r := (Float.ofNat (a % b)).scaleB e
    if Nat.pow 2 63 ≤ x.toBits.toNat then -r else r

end Quill.Number
