import Quill.Token.Kind

/-!
# Operators

The binary, unary and range operators, and the marks they are written with.
-/

namespace Quill

/-- The operators between two operands. -/
inductive BinaryOp where
  | coalesce | or | and | bitOr | bitXor | bitAnd
  | less | lessEquals | equals | notEquals | greaterEquals | greater
  | shiftLeft | shiftRight | add | subtract | multiply | divide | remainder | power
deriving DecidableEq, Repr, Inhabited

namespace BinaryOp

/-- Every binary operator. -/
def all : List BinaryOp :=
  [.coalesce, .or, .and, .bitOr, .bitXor, .bitAnd, .less, .lessEquals, .equals, .notEquals,
   .greaterEquals, .greater, .shiftLeft, .shiftRight, .add, .subtract, .multiply, .divide,
   .remainder, .power]

/-- The mark an operator is written with. -/
def mark : BinaryOp → Mark
  | .coalesce => .questionQuestion
  | .or => .or
  | .and => .and
  | .bitOr => .pipe
  | .bitXor => .caret
  | .bitAnd => .ampersand
  | .less => .less
  | .lessEquals => .lessEquals
  | .equals => .equals
  | .notEquals => .notEquals
  | .greaterEquals => .greaterEquals
  | .greater => .greater
  | .shiftLeft => .shiftLeft
  | .shiftRight => .shiftRight
  | .add => .plus
  | .subtract => .dash
  | .multiply => .star
  | .divide => .slash
  | .remainder => .percent
  | .power => .starStar

/-- The spelling of an operator. -/
def symbol (op : BinaryOp) : String := op.mark.spelling

/-- The name of an operator in printed trees. -/
def name : BinaryOp → String
  | .coalesce => "Coalesce"
  | .or => "Or"
  | .and => "And"
  | .bitOr => "BitOr"
  | .bitXor => "BitXor"
  | .bitAnd => "BitAnd"
  | .less => "Less"
  | .lessEquals => "LessEquals"
  | .equals => "Equals"
  | .notEquals => "NotEquals"
  | .greaterEquals => "GreaterEquals"
  | .greater => "Greater"
  | .shiftLeft => "ShiftLeft"
  | .shiftRight => "ShiftRight"
  | .add => "Add"
  | .subtract => "Subtract"
  | .multiply => "Multiply"
  | .divide => "Divide"
  | .remainder => "Remainder"
  | .power => "Power"

/-- The binary operator that a token of this kind stands for, if any. -/
def ofKind? (kind : TokenKind) : Option BinaryOp := all.find? fun op => kind == .mark op.mark

/-- The operators that group to the right: `a ** b ** c` is `a ** (b ** c)`. -/
def groupsRight : BinaryOp → Bool
  | .power | .coalesce => true
  | _ => false

end BinaryOp

/-- The operators before an operand. -/
inductive UnaryOp where
  | negate | not | length | some
deriving DecidableEq, Repr, Inhabited

namespace UnaryOp

/-- Every unary operator. -/
def all : List UnaryOp := [.negate, .not, .length, .some]

/-- The kind of token an operator is written with. -/
def kind : UnaryOp → TokenKind
  | .negate => .mark .dash
  | .not => .mark .not
  | .length => .mark .hash
  | .some => .word .someWord

/-- The spelling of an operator. -/
def symbol : UnaryOp → String
  | .negate => "-"
  | .not => "!"
  | .length => "#"
  | .some => "some"

/-- The name of an operator in printed trees. -/
def name : UnaryOp → String
  | .negate => "Negate"
  | .not => "Not"
  | .length => "Length"
  | .some => "Some"

/-- The unary operator that a token of this kind stands for, if any. -/
def ofKind? (kind : TokenKind) : Option UnaryOp := all.find? fun op => kind == op.kind

end UnaryOp

/-- The two ranges of a counting loop: without and with the upper bound. -/
inductive RangeOp where
  | exclusive | inclusive
deriving DecidableEq, Repr, Inhabited

namespace RangeOp

/-- The mark a range is written with. -/
def mark : RangeOp → Mark
  | .exclusive => .dotDotLess
  | .inclusive => .ellipsis

/-- The spelling of a range. -/
def symbol (op : RangeOp) : String := op.mark.spelling

/-- The name of a range in printed trees. -/
def name : RangeOp → String
  | .exclusive => "Exclusive"
  | .inclusive => "Inclusive"

/-- The range that a token of this kind stands for, if any. -/
def ofKind? (kind : TokenKind) : Option RangeOp :=
  if kind = .mark .dotDotLess then Option.some .exclusive
  else if kind = .mark .ellipsis then Option.some .inclusive
  else none

end RangeOp

end Quill
