import Quill.Token.Kind

/-!
# What a token may begin and continue

The tables that steer the parsers. For each kind of token a grammar says which statement it
announces, which expression or type annotation it starts, and how it continues one that stands
before it, and how tightly. `Grammar.standard` is the language; `Grammar.bare` knows nothing and
can be filled entry by entry.
-/

namespace Quill

/-- How tightly an operator holds its operands, weakest first. -/
inductive Power where
  | weakest | conditional | coalesce | logicalOr | logicalAnd | bitOr | bitXor | bitAnd
  | relational | shift | additive | multiplicative | exponent | unary | call | primary
deriving DecidableEq, Repr, Inhabited

namespace Power

/-- Every power, weakest first. -/
def all : List Power :=
  [.weakest, .conditional, .coalesce, .logicalOr, .logicalAnd, .bitOr, .bitXor, .bitAnd,
   .relational, .shift, .additive, .multiplicative, .exponent, .unary, .call, .primary]

/-- The number of weaker powers. -/
def rank : Power → Nat
  | .weakest => 0
  | .conditional => 1
  | .coalesce => 2
  | .logicalOr => 3
  | .logicalAnd => 4
  | .bitOr => 5
  | .bitXor => 6
  | .bitAnd => 7
  | .relational => 8
  | .shift => 9
  | .additive => 10
  | .multiplicative => 11
  | .exponent => 12
  | .unary => 13
  | .call => 14
  | .primary => 15

/-- The next weaker power; the weakest is its own. An operator that reads its right operand at
this power groups to the right. -/
def lower : Power → Power
  | .weakest | .conditional => .weakest
  | .coalesce => .conditional
  | .logicalOr => .coalesce
  | .logicalAnd => .logicalOr
  | .bitOr => .logicalAnd
  | .bitXor => .bitOr
  | .bitAnd => .bitXor
  | .relational => .bitAnd
  | .shift => .relational
  | .additive => .shift
  | .multiplicative => .additive
  | .exponent => .multiplicative
  | .unary => .exponent
  | .call => .unary
  | .primary => .call

/-- The name of a power in reports. -/
def name : Power → String
  | .weakest => "Default"
  | .conditional => "Conditional"
  | .coalesce => "Coalesce"
  | .logicalOr => "LogicalOr"
  | .logicalAnd => "LogicalAnd"
  | .bitOr => "BitOr"
  | .bitXor => "BitXor"
  | .bitAnd => "BitAnd"
  | .relational => "Relational"
  | .shift => "Shift"
  | .additive => "Additive"
  | .multiplicative => "Multiplicative"
  | .exponent => "Power"
  | .unary => "Unary"
  | .call => "Call"
  | .primary => "Primary"

instance : LE Power := ⟨fun p q => p.rank ≤ q.rank⟩

instance (p q : Power) : Decidable (p ≤ q) := inferInstanceAs (Decidable (p.rank ≤ q.rank))

end Power

/-- The statements that a token announces. -/
inductive StmtForm where
  | declare | struct | function | breakLoop | giveBack | branch | whileLoop | repeatLoop | forLoop
deriving DecidableEq, Repr

/-- The ways in which an expression starts. -/
inductive ExprStart where
  /-- A literal or a name. -/
  | primary
  /-- An operator before its operand. -/
  | unary
  /-- Parentheses. -/
  | group
  /-- Brackets around elements. -/
  | array
  /-- A missing value. -/
  | absent
deriving DecidableEq, Repr

/-- The ways in which an expression goes on. -/
inductive ExprFollow where
  | binary | conditional | call | subscript | member
deriving DecidableEq, Repr

/-- The ways in which a type annotation starts. -/
inductive TypeStart where
  | named | array | sum | function
deriving DecidableEq, Repr

/-- The way in which a type annotation goes on. -/
inductive TypeFollow where
  | optional
deriving DecidableEq, Repr

/-- For each kind of token, what it announces, starts and continues. -/
structure Grammar where
  stmt : TokenKind → Option StmtForm
  exprStart : TokenKind → Option ExprStart
  exprFollow : TokenKind → Option (Power × ExprFollow)
  typeStart : TokenKind → Option TypeStart
  typeFollow : TokenKind → Option (Power × TypeFollow)

namespace Grammar

/-- The grammar in which no token means anything. -/
def bare : Grammar :=
  ⟨fun _ => none, fun _ => none, fun _ => none, fun _ => none, fun _ => none⟩

/-- The statement that a token announces. -/
def standardStmt : TokenKind → Option StmtForm
  | .word .constWord | .word .letWord => some .declare
  | .word .structWord => some .struct
  | .word .fnWord => some .function
  | .word .breakWord => some .breakLoop
  | .word .returnWord => some .giveBack
  | .word .ifWord => some .branch
  | .word .whileWord => some .whileLoop
  | .word .repeatWord => some .repeatLoop
  | .word .forWord => some .forLoop
  | _ => none

/-- The expression that a token starts. -/
def standardExprStart : TokenKind → Option ExprStart
  | .integer | .float | .string | .identifier | .word .trueWord | .word .falseWord =>
    some .primary
  | .mark .dash | .mark .not | .mark .hash | .word .someWord => some .unary
  | .mark .openParen => some .group
  | .mark .openBracket => some .array
  | .word .noWord => some .absent
  | _ => none

/-- How a token continues an expression. -/
def standardExprFollow : TokenKind → Option (Power × ExprFollow)
  | .mark .question => some (.conditional, .conditional)
  | .mark .questionQuestion => some (.coalesce, .binary)
  | .mark .or => some (.logicalOr, .binary)
  | .mark .and => some (.logicalAnd, .binary)
  | .mark .pipe => some (.bitOr, .binary)
  | .mark .caret => some (.bitXor, .binary)
  | .mark .ampersand => some (.bitAnd, .binary)
  | .mark .less | .mark .lessEquals | .mark .greater | .mark .greaterEquals
  | .mark .equals | .mark .notEquals => some (.relational, .binary)
  | .mark .shiftLeft | .mark .shiftRight => some (.shift, .binary)
  | .mark .plus | .mark .dash => some (.additive, .binary)
  | .mark .star | .mark .slash | .mark .percent => some (.multiplicative, .binary)
  | .mark .starStar => some (.exponent, .binary)
  | .mark .openParen => some (.call, .call)
  | .mark .openBracket => some (.call, .subscript)
  | .mark .dot | .mark .questionDot => some (.call, .member)
  | _ => none

/-- The type annotation that a token starts. -/
def standardTypeStart : TokenKind → Option TypeStart
  | .identifier => some .named
  | .mark .openBracket => some .array
  | .mark .less => some .sum
  | .mark .openParen => some .function
  | _ => none

/-- How a token continues a type annotation. -/
def standardTypeFollow : TokenKind → Option (Power × TypeFollow)
  | .mark .question => some (.call, .optional)
  | _ => none

/-- The grammar of the language. -/
def standard : Grammar :=
  ⟨standardStmt, standardExprStart, standardExprFollow, standardTypeStart, standardTypeFollow⟩

/-- The grammar with one more way to start an expression. -/
def withExprStart (g : Grammar) (kind : TokenKind) (form : ExprStart) : Grammar :=
  { g with exprStart := fun k => if k = kind then some form else g.exprStart k }

/-- The grammar with one more way to continue an expression. -/
def withExprFollow (g : Grammar) (kind : TokenKind) (power : Power) (form : ExprFollow) :
    Grammar :=
  { g with exprFollow := fun k => if k = kind then some (power, form) else g.exprFollow k }

end Grammar

end Quill
