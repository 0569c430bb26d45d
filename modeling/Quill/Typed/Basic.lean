import Quill.Entity
import Quill.Operator

/-!
# Typed programs

A program after checking: every expression knows its type, every name is the variable or function
it stands for, and structs are known by number. Nothing here remembers where it came from.
-/

namespace Quill.Typed

/-- A value written down. -/
inductive Literal where
  | int (value : Int64)
  | float (value : Float)
  | string (value : String)
  | bool (value : Bool)
deriving BEq, Repr, Inhabited

/-- The type of a literal. -/
def Literal.type : Literal → Ty
  | .int _ => .int
  | .float _ => .float
  | .string _ => .string
  | .bool _ => .bool

/-- An expression with its type. -/
inductive Expr where
  | literal (value : Literal)
  | conditional (test yes no : Expr) (type : Ty)
  | binary (op : BinaryOp) (left right : Expr) (type : Ty)
  | unary (op : UnaryOp) (operand : Expr) (type : Ty)
  | array (elements : List Expr) (type : Ty)
  /-- An array without elements; the type is that of the array. -/
  | emptyArray (type : Ty)
  /-- A missing value; the type is the optional one. -/
  | absent (type : Ty)
  | subscript (array index : Expr) (type : Ty)
  /-- A field; when `chained`, of an optional struct. -/
  | member (object : Expr) (field : String) (chained : Bool) (type : Ty)
  | call (callee : Expr) (args : List Expr) (type : Ty)
  /-- A new struct, field by field. -/
  | construct (id : StructId) (args : List Expr)
  | variable (v : Variable)
  | function (f : Function)
deriving BEq, Repr, Inhabited

namespace Expr

/-- The literal integer. -/
abbrev int (n : Int64) : Expr := .literal (.int n)

/-- The literal float. -/
abbrev float (x : Float) : Expr := .literal (.float x)

/-- The literal text. -/
abbrev string (s : String) : Expr := .literal (.string s)

/-- The literal truth value. -/
abbrev bool (b : Bool) : Expr := .literal (.bool b)

/-- The type of an expression. -/
def type : Expr → Ty
  | .literal l => l.type
  | .conditional _ _ _ t | .binary _ _ _ t | .unary _ _ t | .array _ t | .emptyArray t
  | .absent t | .subscript _ _ t | .member _ _ _ t | .call _ _ t => t
  | .construct id _ => .struct id
  | .variable v => v.type
  | .function f => f.type

/-- The literal that an expression is, if it is one. -/
def literal? : Expr → Option Literal
  | .literal l => some l
  | _ => none

end Expr

/-- A statement of a checked program. -/
inductive Stmt where
  /-- A variable and its first value. -/
  | declare (v : Variable) (byReference : Bool) (value : Expr)
  /-- The declaration of a struct. -/
  | struct (id : StructId)
  | function (f : Function) (params : List Variable) (body : List Stmt)
  | assign (target source : Expr) (byReference : Bool)
  | increment (target : Expr)
  | decrement (target : Expr)
  | breakLoop
  | giveBack (value : Option Expr)
  | branch (test : Expr) (yes no : List Stmt)
  /-- A branch without an alternative. -/
  | shortBranch (test : Expr) (yes : List Stmt)
  | whileLoop (test : Expr) (body : List Stmt)
  | repeatLoop (count : Expr) (body : List Stmt)
  | rangeLoop (iterator : Variable) (low : Expr) (op : RangeOp) (high : Expr) (body : List Stmt)
  | eachLoop (iterator : Variable) (collection : Expr) (body : List Stmt)
  /-- A call that stands for its effect. -/
  | perform (call : Expr)
deriving BEq, Repr, Inhabited

/-- A checked program and the structs it declares. -/
structure Program where
  statements : List Stmt
  types : TypeTable
deriving BEq, Repr, Inhabited

end Quill.Typed
