import Quill.Number.Reading
import Quill.Parse.Type

/-!
# Parsing expressions

An expression is a start and then as many continuations as hold it more tightly than its place
asks. Each form is a parser over the parser of its parts; `expr` ties them together.
-/

namespace Quill.Parse

open Quill.Parser Syntax

/-- A literal or a name. A number without a value is a fault of its own. -/
def primary : Parser Expr := do
  let token ← peek
  match token.kind with
  | .integer =>
    match Number.readInt64? token.value with
    | some value => let _ ← advance; return .int value token.span
    | none => fail ⟨.badNumber token.value, token.span.start⟩
  | .float =>
    match Number.readFloat? token.value with
    | some value => let _ ← advance; return .float value token.span
    | none => fail ⟨.badNumber token.value, token.span.start⟩
  | .string => let _ ← advance; return .string token.value token.span
  | .word .trueWord => let _ ← advance; return .bool true token.span
  | .word .falseWord => let _ ← advance; return .bool false token.span
  | .identifier => let _ ← advance; return .symbol token.value token.span
  | _ => unexpected

/-- The fault that this token, already passed, cannot stand where it stood. -/
def misplaced (token : Token) : Diagnostic := ⟨.unexpected token.value, token.span.start⟩

/-- `- e` and its like: only what stands behind the operand holds it more tightly. -/
def unary (expr : Power → Parser Expr) : Parser Expr := do
  let token ← advance
  match UnaryOp.ofKind? token.kind with
  | none => fail (misplaced token)
  | some op =>
    let operand ← expr .unary
    return .unary op operand (token.span.join operand.span)

/-- `( e )`: the expression inside, span and all. -/
def group (expr : Power → Parser Expr) : Parser Expr := do
  let _ ← expect (.mark .openParen)
  let inner ← expr .weakest
  let _ ← expect (.mark .closeParen)
  return inner

/-- `[a, b]`, or `[]T` when the brackets are empty. -/
def array (expr : Power → Parser Expr) (type : Parser TypeExpr) (n : Nat) : Parser Expr := do
  let opening ← expect (.mark .openBracket)
  if ← accept (.mark .closeBracket) then
    let element ← type
    return .emptyArray element (← spanFrom opening.span.start)
  else
    let elements ← commaSeparated (expr .weakest) n
    let _ ← expect (.mark .closeBracket)
    return .array elements (← spanFrom opening.span.start)

/-- `no T`. -/
def absent (type : Parser TypeExpr) : Parser Expr := do
  let token ← expect (.word .noWord)
  let base ← type
  return .absent base (← spanFrom token.span.start)

/-- The start of an expression. -/
def exprHead (g : Grammar) (expr : Power → Parser Expr) (type : Parser TypeExpr) (n : Nat) :
    Parser Expr := do
  match g.exprStart (← peekKind) with
  | none => unexpected
  | some .primary => primary
  | some .unary => unary expr
  | some .group => group expr
  | some .array => array expr type n
  | some .absent => absent type

/-- `left op right`, of which `left` is parsed. -/
def binary (expr : Power → Parser Expr) (left : Expr) (power : Power) : Parser Expr := do
  let token ← advance
  match BinaryOp.ofKind? token.kind with
  | none => fail (misplaced token)
  | some op =>
    let right ← expr (if op.groupsRight then power.lower else power)
    return .binary op left right (left.span.join right.span)

/-- `test ? yes : no`, of which `test` is parsed. -/
def conditional (expr : Power → Parser Expr) (test : Expr) (power : Power) : Parser Expr := do
  let _ ← expect (.mark .question)
  let yes ← expr .weakest
  let _ ← expect (.mark .colon)
  let no ← expr power.lower
  return .conditional test yes no (test.span.join no.span)

/-- `callee(a, b)`, of which `callee` is parsed. -/
def call (expr : Power → Parser Expr) (n : Nat) (callee : Expr) : Parser Expr := do
  let _ ← expect (.mark .openParen)
  let args ← commaClosed (.mark .closeParen) (expr .weakest) n
  let _ ← expect (.mark .closeParen)
  return .call callee args (← spanFrom callee.span.start)

/-- `array[index]`, of which `array` is parsed. -/
def subscript (expr : Power → Parser Expr) (array : Expr) : Parser Expr := do
  let _ ← expect (.mark .openBracket)
  let index ← expr .weakest
  let _ ← expect (.mark .closeBracket)
  return .subscript array index (← spanFrom array.span.start)

/-- `object.field` or `object?.field`, of which `object` is parsed. -/
def member (object : Expr) : Parser Expr := do
  let token ← advance
  let field ← expectOr .identifier "expected field name after `.`"
  return .member object field.value (token.kind = .mark .questionDot)
    ⟨object.span.start, field.span.stop⟩

/-- One continuation of an expression. -/
def continuation (expr : Power → Parser Expr) (n : Nat) (left : Expr) (power : Power)
    (form : ExprFollow) : Parser Expr :=
  match form with
  | .binary => binary expr left power
  | .conditional => conditional expr left power
  | .call => call expr n left
  | .subscript => subscript expr left
  | .member => member left

/-- One more continuation of an expression, if the next token holds it more tightly than `power`,
and then the others. -/
def Round.exprTail (g : Grammar) (expr : Power → Parser Expr) (power : Power) (n : Nat)
    (others : Expr → Parser Expr) (left : Expr) : Parser Expr := do
  match g.exprFollow (← peekKind) with
  | none => return left
  | some (p, form) => if p ≤ power then return left else others (← continuation expr n left p form)

/-- Extends an expression while the next token holds it more tightly than `power`. -/
def exprTail (g : Grammar) (expr : Power → Parser Expr) (power : Power) :
    Nat → Expr → Parser Expr
  | 0, _ => throw .exhausted
  | n + 1, left => Round.exprTail g expr power n (exprTail g expr power n) left

/-- The expression that starts at the cursor, within a budget of calls. -/
def expr (g : Grammar) : Nat → Power → Parser Expr
  | 0, _ => throw .exhausted
  | n + 1, power => do
    exprTail g (expr g n) power n (← exprHead g (expr g n) (typeExpr g n .weakest) n)

end Quill.Parse
