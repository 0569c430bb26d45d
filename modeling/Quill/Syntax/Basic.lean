import Quill.Operator
import Quill.Position

/-!
# Syntax trees

A program as it is written, before any name has a meaning: type annotations, expressions and
statements, each with the span of text it comes from. Parentheses around an expression leave no
trace; they only shape the tree.
-/

namespace Quill.Syntax

/-- A type annotation. -/
inductive TypeExpr where
  /-- `T`: a name. -/
  | named (name : String) (span : Span)
  /-- `[T]`: arrays. -/
  | array (element : TypeExpr) (span : Span)
  /-- `T?`: a value or nothing. -/
  | optional (base : TypeExpr) (span : Span)
  /-- `<A, B>`: one of several types. -/
  | sum (alternatives : List TypeExpr) (span : Span)
  /-- `(A, B) -> R`: functions. -/
  | function (params : List TypeExpr) (result : TypeExpr) (span : Span)
deriving Inhabited, Repr

/-- An expression. -/
inductive Expr where
  | int (value : Int64) (span : Span)
  | float (value : Float) (span : Span)
  | string (value : String) (span : Span)
  | bool (value : Bool) (span : Span)
  /-- `x`: a name. -/
  | symbol (name : String) (span : Span)
  | binary (op : BinaryOp) (left right : Expr) (span : Span)
  | unary (op : UnaryOp) (operand : Expr) (span : Span)
  /-- `test ? yes : no`. -/
  | conditional (test yes no : Expr) (span : Span)
  /-- `[a, b]`. -/
  | array (elements : List Expr) (span : Span)
  /-- `[]T`. -/
  | emptyArray (element : TypeExpr) (span : Span)
  /-- `no T`: the missing value of `T?`. -/
  | absent (base : TypeExpr) (span : Span)
  /-- `a[i]`. -/
  | subscript (array index : Expr) (span : Span)
  /-- `o.f`, or `o?.f` when `chained`. -/
  | member (object : Expr) (field : String) (chained : Bool) (span : Span)
  /-- `f(a, b)`. -/
  | call (callee : Expr) (args : List Expr) (span : Span)
deriving Inhabited, Repr

/-- A name with its type: a field of a struct or a parameter of a function. -/
structure Binding where
  name : String
  type : TypeExpr
  span : Span
deriving Inhabited, Repr

mutual

/-- A statement. -/
inductive Stmt where
  /-- `let x = e;` or `const x = e;`, with `<-` when `byReference`. -/
  | declare (name : String) (isConstant byReference : Bool) (value : Expr) (span : Span)
  /-- `struct S { f: T }`. -/
  | struct (name : String) (fields : List Binding) (span : Span)
  /-- `fn f(x: T): R { ... }`; no result type means that nothing is returned. -/
  | function (name : String) (params : List Binding) (result : Option TypeExpr) (body : Block)
      (span : Span)
  /-- `target = value;`, with `<-` when `byReference`. -/
  | assign (target value : Expr) (byReference : Bool) (span : Span)
  /-- `target++;`. -/
  | increment (target : Expr) (span : Span)
  /-- `target--;`. -/
  | decrement (target : Expr) (span : Span)
  /-- `break;`. -/
  | breakLoop (span : Span)
  /-- `return;` or `return e;`. -/
  | giveBack (value : Option Expr) (span : Span)
  /-- `if test { ... }` and what follows an `else`. -/
  | branch (test : Expr) (body : Block) (alternative : Alternative) (span : Span)
  /-- `while test { ... }`. -/
  | whileLoop (test : Expr) (body : Block) (span : Span)
  /-- `repeat count { ... }`. -/
  | repeatLoop (count : Expr) (body : Block) (span : Span)
  /-- `for i in low ..< high { ... }` or `for i in low ... high { ... }`. -/
  | rangeLoop (iterator : String) (low : Expr) (op : RangeOp) (high : Expr) (body : Block)
      (span : Span)
  /-- `for x in collection { ... }`. -/
  | eachLoop (iterator : String) (collection : Expr) (body : Block) (span : Span)
  /-- An expression that stands for its effect. -/
  | perform (expression : Expr) (span : Span)

/-- Statements between braces, or a whole program. -/
inductive Block where
  | mk (body : List Stmt) (span : Span)

/-- What follows the first arm of a branch. -/
inductive Alternative where
  /-- Nothing. -/
  | nothing
  /-- `else { ... }`. -/
  | otherwise (body : Block)
  /-- `else if test { ... }`, and what follows it. -/
  | elseIf (test : Expr) (body : Block) (alternative : Alternative) (span : Span)

end

instance : Inhabited Block := ⟨.mk [] default⟩

instance : Inhabited Stmt := ⟨.breakLoop default⟩

/-- The text an annotation comes from. -/
def TypeExpr.span : TypeExpr → Span
  | .named _ s | .array _ s | .optional _ s | .sum _ s | .function _ _ s => s

/-- The text an expression comes from, without parentheses around it. -/
def Expr.span : Expr → Span
  | .int _ s | .float _ s | .string _ s | .bool _ s | .symbol _ s | .binary _ _ _ s
  | .unary _ _ s | .conditional _ _ _ s | .array _ s | .emptyArray _ s | .absent _ s
  | .subscript _ _ s | .member _ _ _ s | .call _ _ s => s

/-- The statements of a block. -/
def Block.body : Block → List Stmt
  | .mk body _ => body

/-- The text a block comes from, braces included. -/
def Block.span : Block → Span
  | .mk _ span => span

end Quill.Syntax
