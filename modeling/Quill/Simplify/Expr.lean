import Quill.Simplify.Literal

/-!
# Simplifying expressions

`simplify` rebuilds an expression from its simplified parts. An operator on literals becomes its
result where there is one, and is left alone where there is none. Otherwise a neutral operand is
dropped, and a result that one operand settles takes the place of the operator; `false && e` is
`false`, but `e && false` keeps the effects of `e`.
-/

namespace Quill.Typed.Expr

/-- Whether the expression is the literal zero. -/
def isZero : Expr → Bool
  | .literal (.int n) => n = 0
  | .literal (.float x) => x == 0.0
  | _ => false

/-- Whether the expression is the literal one. -/
def isOne : Expr → Bool
  | .literal (.int n) => n = 1
  | .literal (.float x) => x == 1.0
  | _ => false

/-- Whether the expression is the given literal truth value. -/
def isBool (b : Bool) : Expr → Bool
  | .literal (.bool c) => c = b
  | _ => false

/-- Whether the expression is a missing value. -/
def isAbsent : Expr → Bool
  | .absent _ => true
  | _ => false

/-- Whether the expression is an array without elements. -/
def isEmptyArray : Expr → Bool
  | .emptyArray _ => true
  | _ => false

/-- Zero as a literal of the type: a float for floats, an integer otherwise. -/
def zeroOf (t : Ty) : Expr := if t = .float then .float 0.0 else .int 0

/-- One as a literal of the type. -/
def oneOf (t : Ty) : Expr := if t = .float then .float 1.0 else .int 1

/-- What takes the place of `left op right` of type `t` because of one of the operands. -/
def identity? (op : BinaryOp) (left right : Expr) (t : Ty) : Option Expr :=
  match op with
  | .add =>
    if right.isZero then some left else if left.isZero then some right else none
  | .subtract =>
    if right.isZero then some left
    else if left.isZero then some (.unary .negate right t)
    else none
  | .multiply =>
    if right.isOne then some left
    else if left.isOne then some right
    else if left.isZero || right.isZero then some (zeroOf t)
    else none
  | .divide =>
    if right.isOne then some left else if left.isZero then some (zeroOf t) else none
  | .power => if left.isOne || right.isZero then some (oneOf t) else none
  | .or =>
    if left.isBool false then some right
    else if right.isBool false then some left
    else if left.isBool true then some (.bool true)
    else none
  | .and =>
    if left.isBool true then some right
    else if right.isBool true then some left
    else if left.isBool false then some (.bool false)
    else none
  | .coalesce => if left.isAbsent then some right else none
  | _ => none

/-- `left op right` of type `t`, simplified, when the operands are. -/
def simplifyBinary (op : BinaryOp) (left right : Expr) (t : Ty) : Expr :=
  match left.literal?, right.literal? with
  | some a, some b =>
    match Literal.foldBinary? op a b with
    | some c => .literal c
    | none => .binary op left right t
  | _, _ => (identity? op left right t).getD (.binary op left right t)

/-- The literal that `op operand` is, if it is known. -/
def foldUnary? (op : UnaryOp) (operand : Expr) : Option Literal :=
  match operand.literal? with
  | some a => Literal.foldUnary? op a
  | none => if op = .length && operand.isEmptyArray then some (.int 0) else none

/-- `op operand` of type `t`, simplified, when the operand is. -/
def simplifyUnary (op : UnaryOp) (operand : Expr) (t : Ty) : Expr :=
  match foldUnary? op operand with
  | some a => .literal a
  | none => .unary op operand t

/-- `test ? yes : no` of type `t`, simplified, when the parts are. -/
def simplifyConditional (test yes no : Expr) (t : Ty) : Expr :=
  if test.isBool true then yes
  else if test.isBool false then no
  else .conditional test yes no t

mutual

/-- The expression, simplified. -/
def simplify : Expr → Expr
  | .literal l => .literal l
  | .conditional test yes no t =>
    simplifyConditional test.simplify yes.simplify no.simplify t
  | .binary op left right t => simplifyBinary op left.simplify right.simplify t
  | .unary op operand t => simplifyUnary op operand.simplify t
  | .array elements t => .array (simplifyAll elements) t
  | .emptyArray t => .emptyArray t
  | .absent t => .absent t
  | .subscript items index t => .subscript items.simplify index.simplify t
  | .member object field chained t => .member object.simplify field chained t
  | .call callee args t => .call callee.simplify (simplifyAll args) t
  | .construct id args => .construct id (simplifyAll args)
  | .variable v => .variable v
  | .function f => .function f

/-- Each expression of a list, simplified. -/
def simplifyAll : List Expr → List Expr
  | [] => []
  | e :: es => e.simplify :: simplifyAll es

end

end Quill.Typed.Expr
