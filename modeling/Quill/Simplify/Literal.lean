import Quill.Number.Binary64
import Quill.Number.Word
import Quill.Typed.Basic

/-!
# Folding literals

The value of an operator on two literals, where it has one that is known before the program runs.
Integers are left alone when the exact result is no word of 64 bits, floats when the result is not
a number, and literals of two kinds always.
-/

namespace Quill.Typed

namespace Literal

/-- The result of a comparison of two things, given how they compare. -/
def compare? (op : BinaryOp) (lt eq gt : Bool) : Option Literal :=
  match op with
  | .less => some (.bool lt)
  | .lessEquals => some (.bool (lt || eq))
  | .equals => some (.bool eq)
  | .notEquals => some (.bool (!eq))
  | .greaterEquals => some (.bool (gt || eq))
  | .greater => some (.bool gt)
  | _ => none

/-- The result of an operator on two integers. -/
def foldInt? (op : BinaryOp) (a b : Int64) : Option Literal :=
  match op with
  | .add => (Number.add? a b).map .int
  | .subtract => (Number.sub? a b).map .int
  | .multiply => (Number.mul? a b).map .int
  | .divide => (Number.div? a b).map .int
  | .remainder => (Number.rem? a b).map .int
  | .power => (Number.power? a b).map .int
  | .bitOr => some (.int (a ||| b))
  | .bitXor => some (.int (a ^^^ b))
  | .bitAnd => some (.int (a &&& b))
  | .shiftLeft => (Number.shiftLeft? a b).map .int
  | .shiftRight => (Number.shiftRight? a b).map .int
  | op => compare? op (a < b) (a = b) (b < a)

/-- The float, unless it is not a number. -/
def number? (x : Float) : Option Literal := if x.isNaN then none else some (.float x)

/-- The result of an operator on two floats. -/
def foldFloat? (op : BinaryOp) (a b : Float) : Option Literal :=
  match op with
  | .add => number? (a + b)
  | .subtract => number? (a - b)
  | .multiply => number? (a * b)
  | .divide => number? (a / b)
  | .remainder => number? (Number.remainder a b)
  | .power => number? (a.pow b)
  | op => compare? op (a < b) (a == b) (b < a)

/-- The result of an operator on two texts; they are compared character by character. -/
def foldString? (op : BinaryOp) (a b : String) : Option Literal :=
  match op with
  | .add => some (.string (a ++ b))
  | op => compare? op (a < b) (a = b) (b < a)

/-- The result of an operator on two truth values. -/
def foldBool? (op : BinaryOp) (a b : Bool) : Option Literal :=
  match op with
  | .or => some (.bool (a || b))
  | .and => some (.bool (a && b))
  | .equals => some (.bool (a = b))
  | .notEquals => some (.bool (a ≠ b))
  | _ => none

/-- The result of an operator on two literals. -/
def foldBinary? (op : BinaryOp) : Literal → Literal → Option Literal
  | .int a, .int b => foldInt? op a b
  | .float a, .float b => foldFloat? op a b
  | .string a, .string b => foldString? op a b
  | .bool a, .bool b => foldBool? op a b
  | _, _ => none

/-- The result of an operator on one literal. -/
def foldUnary? : UnaryOp → Literal → Option Literal
  | .negate, .int n => (Number.neg? n).map .int
  | .negate, .float x => some (.float (-x))
  | .not, .bool b => some (.bool (!b))
  | _, _ => none

end Literal

end Quill.Typed
