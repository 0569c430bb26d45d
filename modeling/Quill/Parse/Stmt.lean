import Quill.Parse.Expr

/-!
# Parsing statements

A statement is announced by its first token or starts with an expression. Each form is a parser
over the parsers of its parts; `stmt` ties them together.
-/

namespace Quill.Parse

open Quill.Parser Syntax

/-! ## Blocks -/

/-- A statement and the others, unless the block is closed. -/
def Round.blockBody (stmt : Parser Stmt) (others : Parser (List Stmt)) : Parser (List Stmt) := do
  if (← peekKind) = .mark .closeCurly then return []
  else if (← get).hasTokens then
    let s ← stmt
    return s :: (← others)
  else unexpectedHere "unclosed block"

/-- Statements up to the brace that closes their block. -/
def blockBody (stmt : Parser Stmt) : Nat → Parser (List Stmt)
  | 0 => throw .exhausted
  | n + 1 => Round.blockBody stmt (blockBody stmt n)

/-- Statements between braces. -/
def block (stmt : Parser Stmt) (n : Nat) : Parser Block := do
  let opening ← expect (.mark .openCurly)
  let body ← blockBody stmt n
  let _ ← expect (.mark .closeCurly)
  return .mk body (← spanFrom opening.span.start)

/-! ## The forms of statements -/

/-- What stands between the name and the value of a declaration: whether it is by reference. -/
def bindingMark : Parser Bool := do
  let kind ← peekKind
  if kind = .mark .assign || kind = .mark .leftArrow then
    let _ ← advance
    return kind = .mark .leftArrow
  else unexpectedHere "expected `=` or `<-` in declaration"

/-- `let x = e;`, `const x = e;` and the same with `<-`. -/
def declare (expr : Parser Expr) : Parser Stmt := do
  let token ← advance
  let name ← expectOr .identifier "expected identifier during variable declaration"
  let byReference ← bindingMark
  let value ← expr
  let _ ← expect (.mark .semicolon)
  return .declare name.value (token.kind = .word .constWord) byReference value
    (← spanFrom token.span.start)

/-- `x: T`. -/
def binding (type : Parser TypeExpr) : Parser Binding := do
  let name ← expect .identifier
  let _ ← expect (.mark .colon)
  let type ← type
  return ⟨name.value, type, ← spanFrom name.span.start⟩

/-- `struct S { f: T }`. -/
def struct (type : Parser TypeExpr) (n : Nat) : Parser Stmt := do
  let token ← advance
  let name ← expect .identifier
  let _ ← expect (.mark .openCurly)
  let fields ← commaOptional (.mark .closeCurly) (binding type) n
  let _ ← expect (.mark .closeCurly)
  return .struct name.value fields (← spanFrom token.span.start)

/-- `: T`, or nothing. -/
def resultType (type : Parser TypeExpr) : Parser (Option TypeExpr) := do
  if ← accept (.mark .colon) then return some (← type) else return none

/-- `fn f(x: T): R { ... }`. -/
def function (type : Parser TypeExpr) (block : Parser Block) (n : Nat) : Parser Stmt := do
  let token ← advance
  let name ← expect .identifier
  let _ ← expect (.mark .openParen)
  let params ← commaClosed (.mark .closeParen) (binding type) n
  let _ ← expect (.mark .closeParen)
  let result ← resultType type
  let body ← block
  return .function name.value params result body (← spanFrom token.span.start)

/-- `break;`. -/
def breakLoop : Parser Stmt := do
  let token ← advance
  let _ ← expect (.mark .semicolon)
  return .breakLoop (← spanFrom token.span.start)

/-- An expression, or nothing before a semicolon. -/
def resultValue (expr : Parser Expr) : Parser (Option Expr) := do
  if (← peekKind) = .mark .semicolon then return none else return some (← expr)

/-- `return;` or `return e;`. -/
def giveBack (expr : Parser Expr) : Parser Stmt := do
  let token ← advance
  let value ← resultValue expr
  let _ ← expect (.mark .semicolon)
  return .giveBack value (← spanFrom token.span.start)

/-- One more arm of a branch, and behind one with a test the others. -/
def Round.alternative (expr : Parser Expr) (block : Parser Block) (others : Parser Alternative) :
    Parser Alternative := do
  if ← accept (.word .elseWord) then
    if (← peekKind) = .word .ifWord then
      let token ← expect (.word .ifWord)
      let test ← expr
      let body ← block
      let rest ← others
      return .elseIf test body rest (← spanFrom token.span.start)
    else return .otherwise (← block)
  else return .nothing

/-- What may follow the first arm of a branch. -/
def alternative (expr : Parser Expr) (block : Parser Block) : Nat → Parser Alternative
  | 0 => throw .exhausted
  | n + 1 => Round.alternative expr block (alternative expr block n)

/-- `if test { ... }` and its alternatives. -/
def branch (expr : Parser Expr) (block : Parser Block) (n : Nat) : Parser Stmt := do
  let token ← expect (.word .ifWord)
  let test ← expr
  let body ← block
  let rest ← alternative expr block n
  return .branch test body rest (← spanFrom token.span.start)

/-- `while test { ... }`. -/
def whileLoop (expr : Parser Expr) (block : Parser Block) : Parser Stmt := do
  let token ← advance
  let test ← expr
  let body ← block
  return .whileLoop test body (← spanFrom token.span.start)

/-- `repeat count { ... }`. -/
def repeatLoop (expr : Parser Expr) (block : Parser Block) : Parser Stmt := do
  let token ← advance
  let count ← expr
  let body ← block
  return .repeatLoop count body (← spanFrom token.span.start)

/-- `for i in low ..< high { ... }`, `for i in low ... high { ... }` or `for x in e { ... }`. -/
def forLoop (expr : Parser Expr) (block : Parser Block) : Parser Stmt := do
  let token ← advance
  let iterator ← expectOr .identifier "expected loop variable"
  let _ ← expect (.word .inWord)
  let first ← expr
  match RangeOp.ofKind? (← peekKind) with
  | some op =>
    let _ ← advance
    let high ← expr
    let body ← block
    return .rangeLoop iterator.value first op high body (← spanFrom token.span.start)
  | none =>
    let body ← block
    return .eachLoop iterator.value first body (← spanFrom token.span.start)

/-- Whether the expression is a call: only calls stand alone. -/
def isCall : Expr → Bool
  | .call _ _ _ => true
  | _ => false

/-- `target = value;` or `target <- value;`, of which `target` is parsed. -/
def assign (expr : Parser Expr) (target : Expr) : Parser Stmt := do
  let token ← advance
  let value ← expr
  let _ ← expect (.mark .semicolon)
  return .assign target value (token.kind = .mark .leftArrow) (← spanFrom target.span.start)

/-- `target++;` or `target--;`, of which `target` is parsed. -/
def update (target : Expr) : Parser Stmt := do
  let token ← advance
  let _ ← expect (.mark .semicolon)
  let span ← spanFrom target.span.start
  if token.kind = .mark .plusPlus then return .increment target span
  else return .decrement target span

/-- A call and a semicolon, of which the call is parsed. -/
def perform (call : Expr) : Parser Stmt := do
  if isCall call then
    let _ ← advance
    return .perform call (← spanFrom call.span.start)
  else unexpectedHere "only calls can be used as statements"

/-- A statement that starts with an expression. -/
def plain (expr : Parser Expr) : Parser Stmt := do
  let first ← expr
  match ← peekKind with
  | .mark .assign | .mark .leftArrow => assign expr first
  | .mark .plusPlus | .mark .minusMinus => update first
  | .mark .semicolon => perform first
  | _ => unexpected

/-- A statement over the parsers of its parts. -/
def Round.stmt (g : Grammar) (expr : Parser Expr) (type : Parser TypeExpr) (block : Parser Block)
    (n : Nat) : Parser Stmt := do
  match g.stmt (← peekKind) with
  | some .declare => declare expr
  | some .struct => struct type n
  | some .function => function type block n
  | some .breakLoop => breakLoop
  | some .giveBack => giveBack expr
  | some .branch => branch expr block n
  | some .whileLoop => whileLoop expr block
  | some .repeatLoop => repeatLoop expr block
  | some .forLoop => forLoop expr block
  | none => plain expr

/-- The statement that starts at the cursor, within a budget of calls. -/
def stmt (g : Grammar) : Nat → Parser Stmt
  | 0 => throw .exhausted
  | n + 1 => Round.stmt g (expr g n .weakest) (typeExpr g n .weakest) (block (stmt g n) n) n

end Quill.Parse
