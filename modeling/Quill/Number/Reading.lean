import Quill.Number.Word

/-!
# Reading numbers

The values of integer and float literals. An integer is an optional sign and digits, and must be a
word of 64 bits. A float is an optional sign and either digits with an optional point and exponent,
or one of the names `inf`, `infinity` and `nan`; its value is the float nearest to the number.
-/

namespace Quill.Number

/-- The number that decimal digits write. -/
def ofDigits (ds : List Char) : Nat :=
  ds.foldl (fun n d => 10 * n + (d.toNat - '0'.toNat)) 0

/-- The text behind an optional sign, and whether that sign was a minus. -/
def splitSign : List Char → Bool × List Char
  | '-' :: cs => (true, cs)
  | '+' :: cs => (false, cs)
  | cs => (false, cs)

/-- The value of a text of one or more digits and nothing else. -/
def natural? (cs : List Char) : Option Nat :=
  if cs ≠ [] ∧ cs.all Char.isDigit then some (ofDigits cs) else none

/-- The value of an optional sign and digits. -/
def integer? (cs : List Char) : Option Int :=
  let (negative, ds) := splitSign cs
  (natural? ds).map fun n => if negative then -(n : Int) else n

/-- The word that a text writes. -/
def readInt64? (s : String) : Option Int64 := (integer? s.toList).bind ofInt?

/-- The float nearest to `m * 10 ^ e`. Beyond 400 places on either side of the point the float is
infinite or zero, so the power is not worked out there. -/
def scaled (m : Nat) (e : Int) : Float :=
  let top := e + (Nat.toDigits 10 m).length
  if m = 0 || top < -400 then 0.0
  else if 400 < top then 1.0 / 0.0
  else if 0 ≤ e then Float.ofScientific m false e.toNat
  else Float.ofScientific m true (-e).toNat

/-- The exponent that follows the digits: nothing, or an `e` and an integer. -/
def exponent? : List Char → Option Int
  | [] => some 0
  | c :: cs => if c = 'e' || c = 'E' then integer? cs else none

/-- The digits behind an optional point, and the rest. -/
def splitFraction : List Char → List Char × List Char
  | '.' :: cs => (cs.takeWhile Char.isDigit, cs.dropWhile Char.isDigit)
  | cs => ([], cs)

/-- The float that digits, an optional point and an optional exponent write. -/
def decimal? (cs : List Char) : Option Float :=
  let whole := cs.takeWhile Char.isDigit
  let (fraction, rest) := splitFraction (cs.dropWhile Char.isDigit)
  let digits := whole ++ fraction
  if digits = [] then none
  else (exponent? rest).map fun e => scaled (ofDigits digits) (e - fraction.length)

/-- The float that a text without a sign writes. -/
def magnitude? (cs : List Char) : Option Float :=
  let lower := String.ofList (cs.map Char.toLower)
  if lower = "inf" || lower = "infinity" then some (1.0 / 0.0)
  else if lower = "nan" then some (0.0 / 0.0)
  else decimal? cs

/-- The float that a text writes. -/
def readFloat? (s : String) : Option Float :=
  let (negative, cs) := splitSign s.toList
  (magnitude? cs).map fun x => if negative then -x else x

end Quill.Number
