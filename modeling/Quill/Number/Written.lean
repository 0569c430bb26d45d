import Quill.Number.Shortest

/-!
# Floats as text

A float is written with the fewest digits that read back as it. From `0.0001` up to below `1e16` it
is written out, with at least one decimal; outside of that the exponent follows an `e`.
-/

namespace Quill.Number

/-- The digits, the first of which counts `10 ^ exponent`, with the point in its place. -/
def positional (digits : List Char) (exponent : Int) : List Char :=
  if exponent < 0 then
    '0' :: '.' :: List.replicate (-exponent - 1).toNat '0' ++ digits
  else
    let n := exponent.toNat + 1
    let decimals := digits.drop n
    digits.take n ++ List.replicate (n - digits.length) '0' ++
      '.' :: if decimals.isEmpty then ['0'] else decimals

/-- The digits with the point after the first, and the exponent. -/
def scientific (digits : List Char) (exponent : Int) : List Char :=
  let decimals := digits.drop 1
  digits.take 1 ++ (if decimals.isEmpty then [] else '.' :: decimals) ++
    'e' :: (toString exponent).toList

/-- The text of a float without its sign. -/
def writeUnsigned (x : Float) : String :=
  if x.isInf then "inf"
  else if x == 0.0 then "0.0"
  else
    let (digits, exponent) := shortest x
    String.ofList <|
      if -4 ≤ exponent && exponent < 16 then positional digits exponent
      else scientific digits exponent

/-- The text of a float. -/
def write (x : Float) : String :=
  if x.isNaN then "NaN"
  else if Nat.pow 2 63 ≤ x.toBits.toNat then "-" ++ writeUnsigned (-x)
  else writeUnsigned x

end Quill.Number
