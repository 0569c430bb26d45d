import Quill.Parse.Grammar
import Quill.Parse.List
import Quill.Syntax.Basic

/-!
# Parsing type annotations

Each form of annotation is a parser over the parser of its parts; `typeExpr` ties them together.
A `>>` that closes two sums at once is cut in two by the inner one.
-/

namespace Quill.Parse

open Quill.Parser Syntax

/-- `T`. -/
def namedType : Parser TypeExpr := do
  let token ← expect .identifier
  return .named token.value token.span

/-- `[T]`. -/
def arrayType (type : Parser TypeExpr) : Parser TypeExpr := do
  let opening ← expect (.mark .openBracket)
  let element ← type
  let _ ← expect (.mark .closeBracket)
  return .array element (← spanFrom opening.span.start)

/-- `<A, B>`. -/
def sumType (type : Parser TypeExpr) (n : Nat) : Parser TypeExpr := do
  let opening ← expect (.mark .less)
  let alternatives ← commaSeparated type n
  splitShift
  let _ ← expect (.mark .greater)
  return .sum alternatives (← spanFrom opening.span.start)

/-- `(A, B) -> R`. -/
def functionType (type : Parser TypeExpr) (n : Nat) : Parser TypeExpr := do
  let opening ← expect (.mark .openParen)
  let params ← commaClosed (.mark .closeParen) type n
  let _ ← expect (.mark .closeParen)
  let _ ← expect (.mark .arrow)
  let result ← type
  return .function params result (← spanFrom opening.span.start)

/-- `T?`, of which `T` is parsed. -/
def optionalType (base : TypeExpr) : Parser TypeExpr := do
  let _ ← expect (.mark .question)
  return .optional base (← spanFrom base.span.start)

/-- The start of an annotation. -/
def typeHead (g : Grammar) (type : Parser TypeExpr) (n : Nat) : Parser TypeExpr := do
  match g.typeStart (← peekKind) with
  | none => unexpectedHere "expected a type"
  | some .named => namedType
  | some .array => arrayType type
  | some .sum => sumType type n
  | some .function => functionType type n

/-- One more mark behind an annotation, if the next token holds it more tightly than `power`, and
then the others. -/
def Round.typeTail (g : Grammar) (power : Power) (others : TypeExpr → Parser TypeExpr)
    (left : TypeExpr) : Parser TypeExpr := do
  match g.typeFollow (← peekKind) with
  | none => return left
  | some (p, .optional) => if p ≤ power then return left else others (← optionalType left)

/-- Extends an annotation while the next token holds it more tightly than `power`. -/
def typeTail (g : Grammar) (power : Power) : Nat → TypeExpr → Parser TypeExpr
  | 0, _ => throw .exhausted
  | n + 1, left => Round.typeTail g power (typeTail g power n) left

/-- The annotation that starts at the cursor, within a budget of calls. -/
def typeExpr (g : Grammar) : Nat → Power → Parser TypeExpr
  | 0, _ => throw .exhausted
  | n + 1, power => do
    typeTail g power n (← typeHead g (typeExpr g n .weakest) n)

end Quill.Parse
