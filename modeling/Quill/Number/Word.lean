/-!
# Integers of 64 bits

Integer values are signed words of 64 bits. An operation whose exact result is no such word has no
result: `ofInt?` is the one place where that is decided, and every operation here is the exact
operation on `Int` followed by it.
-/

namespace Quill.Number

/-- Whether the integer is a signed word of 64 bits. -/
def fits (n : Int) : Bool := Int64.minValue.toInt ≤ n && n ≤ Int64.maxValue.toInt

/-- The word of that value, if there is one. -/
def ofInt? (n : Int) : Option Int64 := if fits n then some (Int64.ofInt n) else none

/-- The sum, if it is a word. -/
def add? (a b : Int64) : Option Int64 := ofInt? (a.toInt + b.toInt)

/-- The difference, if it is a word. -/
def sub? (a b : Int64) : Option Int64 := ofInt? (a.toInt - b.toInt)

/-- The product, if it is a word. -/
def mul? (a b : Int64) : Option Int64 := ofInt? (a.toInt * b.toInt)

/-- The opposite, if it is a word. -/
def neg? (a : Int64) : Option Int64 := ofInt? (-a.toInt)

/-- The quotient, cut toward zero. None by zero, and none where the quotient is no word. -/
def div? (a b : Int64) : Option Int64 :=
  if b = 0 then none else ofInt? (a.toInt.tdiv b.toInt)

/-- The remainder of `div?`, with the sign of the dividend. It is undefined wherever the quotient
is. -/
def rem? (a b : Int64) : Option Int64 :=
  if (div? a b).isSome then ofInt? (a.toInt.tmod b.toInt) else none

/-- A shift distance or an exponent: an integer from 0 up to, but without, `bound`. -/
def natBelow? (bound : Nat) (b : Int64) : Option Nat :=
  if 0 ≤ b.toInt && b.toInt < bound then some b.toInt.toNat else none

/-- The power `base ^ n`, if it is a word. A base beyond 1 and -1 leaves the words before its 64th
power, so that no larger power has to be worked out. -/
def pow? (base : Int64) (n : Nat) : Option Int64 :=
  if base.toInt.natAbs ≤ 1 then
    -- the powers of 0, 1 and -1 repeat with period 2
    ofInt? (base.toInt.pow (if n = 0 then 0 else 2 - n % 2))
  else if n < 64 then ofInt? (base.toInt.pow n)
  else none

/-- The power, for an exponent from 0 up to 2 ^ 32, if it is a word. -/
def power? (a b : Int64) : Option Int64 := (natBelow? (Nat.pow 2 32) b).bind (pow? a)

/-- The word shifted left: the bits that leave it are lost. -/
def shiftLeft? (a b : Int64) : Option Int64 :=
  (natBelow? 64 b).map fun n => Int64.ofInt (a.toInt * Int.pow 2 n)

/-- The word shifted right, keeping its sign: the floor of the quotient. -/
def shiftRight? (a b : Int64) : Option Int64 :=
  (natBelow? 64 b).map fun n => Int64.ofInt (a.toInt.fdiv (Int.pow 2 n))

end Quill.Number
