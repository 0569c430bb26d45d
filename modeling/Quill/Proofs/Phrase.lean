import Quill.Number.Reading
import Quill.Parse.Stmt
import Quill.Proofs.Terminal
import Quill.Proofs.Tightness

/-!
# The grammar

For each kind of tree, a relation between trees and the pieces that they are written with:
`TypeWrites`, `ExprWrites`, `StmtWrites` and those for their parts. The relations state the grammar
form by form. Spans are left open in them, and nothing in them knows how a text is read.

`ExprWrites p e w` says that `w` writes `e` so that it holds together at least as tightly as `p`. An
operator takes its operands as `Power.TakesLeft` and `Power.TakesRight` allow; parentheses make any
expression as tight as can be, and leave no trace in the tree.

A piece is a terminal or the end of a sum. The end of a sum is written `>`; `>>` may stand for two
ends, or for an end and the operator `>` behind it (`Spells`).
-/

namespace Quill

/-! ## Pieces -/

/-- What a tree is written with: terminals, and ends of sums. -/
inductive Piece where
  | terminal (x : Terminal)
  | sumEnd
deriving DecidableEq, Repr

namespace Piece

/-- A mark. -/
abbrev mark (m : Mark) : Piece := .terminal (.mark m)

/-- A reserved word. -/
abbrev word (k : Keyword) : Piece := .terminal (.word k)

/-- A name. -/
abbrev name (s : String) : Piece := .terminal (.name s)

end Piece

/-- The terminals that the pieces are written with. -/
inductive Spells : List Piece → List Terminal → Prop
  | nil : Spells [] []
  | terminal {w : List Piece} {xs : List Terminal} (x : Terminal) (h : Spells w xs) :
      Spells (.terminal x :: w) (x :: xs)
  | sumEnd {w : List Piece} {xs : List Terminal} (h : Spells w xs) :
      Spells (.sumEnd :: w) (.mark .greater :: xs)
  | twoSumEnds {w : List Piece} {xs : List Terminal} (h : Spells w xs) :
      Spells (.sumEnd :: .sumEnd :: w) (.mark .shiftRight :: xs)
  | sumEndGreater {w : List Piece} {xs : List Terminal} (h : Spells w xs) :
      Spells (.sumEnd :: .mark .greater :: w) (.mark .shiftRight :: xs)

/-! ## Lists -/

section

variable {α : Type} (W : α → List Piece → Prop)

/-- One or more items with commas between them. -/
inductive Separated : List α → List Piece → Prop
  | last {a : α} {w : List Piece} (h : W a w) : Separated [a] w
  | more {a : α} {as : List α} {w u : List Piece} (h : W a w) (rest : Separated as u) :
      Separated (a :: as) (w ++ .mark .comma :: u)

/-- Items with commas between them, and possibly one behind the last. -/
inductive Closed : List α → List Piece → Prop
  | none : Closed [] []
  | plain {as : List α} {w : List Piece} (h : Separated W as w) : Closed as w
  | trailing {as : List α} {w : List Piece} (h : Separated W as w) :
      Closed as (w ++ [.mark .comma])

/-- Items one behind the other. -/
inductive Joined : List α → List Piece → Prop
  | nil : Joined [] []
  | cons {a : α} {as : List α} {w u : List Piece} (h : W a w) (rest : Joined as u) :
      Joined (a :: as) (w ++ u)

/-- An item, and possibly a comma. -/
inductive WithComma : α → List Piece → Prop
  | plain {a : α} {w : List Piece} (h : W a w) : WithComma a w
  | comma {a : α} {w : List Piece} (h : W a w) : WithComma a (w ++ [.mark .comma])

end

/-! ## Type annotations -/

open Syntax

/-- Whether the annotation is one for functions. -/
def Syntax.TypeExpr.isFunction : TypeExpr → Bool
  | .function _ _ _ => true
  | _ => false

/-- The pieces write the annotation. A `?` behind the result of a function belongs to the result. -/
inductive TypeWrites : TypeExpr → List Piece → Prop
  | named {s : String} {span : Span} : TypeWrites (.named s span) [.name s]
  | array {t : TypeExpr} {span : Span} {w : List Piece} (h : TypeWrites t w) :
      TypeWrites (.array t span) (.mark .openBracket :: (w ++ [.mark .closeBracket]))
  | optional {t : TypeExpr} {span : Span} {w : List Piece} (h : TypeWrites t w)
      (hbase : t.isFunction = false) : TypeWrites (.optional t span) (w ++ [.mark .question])
  | sum {ts : List TypeExpr} {span : Span} {w : List Piece} (h : Separated TypeWrites ts w) :
      TypeWrites (.sum ts span) (.mark .less :: (w ++ [.sumEnd]))
  | function {ps : List TypeExpr} {r : TypeExpr} {span : Span} {w u : List Piece}
      (hparams : Closed TypeWrites ps w) (hresult : TypeWrites r u) :
      TypeWrites (.function ps r span)
        (.mark .openParen :: (w ++ .mark .closeParen :: .mark .arrow :: u))

/-! ## Expressions -/

/-- What an operator before an operand is written with. -/
def UnaryOp.terminal : UnaryOp → Terminal
  | .negate => .mark .dash
  | .not => .mark .not
  | .length => .mark .hash
  | .some => .word .someWord

/-- The pieces write the expression, at least as tightly as the power. -/
inductive ExprWrites : Power → Expr → List Piece → Prop
  | weaker {p q : Power} {e : Expr} {w : List Piece} (h : ExprWrites q e w) (hpq : p ≤ q) :
      ExprWrites p e w
  | int {s : String} {n : Int64} {span : Span} (h : Number.readInt64? s = some n) :
      ExprWrites .primary (.int n span) [.terminal (.integer s)]
  | float {s : String} {x : Float} {span : Span} (h : Number.readFloat? s = some x) :
      ExprWrites .primary (.float x span) [.terminal (.float s)]
  | string {s : String} {span : Span} :
      ExprWrites .primary (.string s span) [.terminal (.string s)]
  | bool {b : Bool} {span : Span} :
      ExprWrites .primary (.bool b span) [.word (if b then .trueWord else .falseWord)]
  | symbol {s : String} {span : Span} : ExprWrites .primary (.symbol s span) [.name s]
  | group {e : Expr} {w : List Piece} (h : ExprWrites .weakest e w) :
      ExprWrites .primary e (.mark .openParen :: (w ++ [.mark .closeParen]))
  | array {es : List Expr} {span : Span} {w : List Piece}
      (h : Separated (ExprWrites .weakest) es w) :
      ExprWrites .primary (.array es span) (.mark .openBracket :: (w ++ [.mark .closeBracket]))
  | emptyArray {t : TypeExpr} {span : Span} {w : List Piece} (h : TypeWrites t w) :
      ExprWrites .primary (.emptyArray t span) (.mark .openBracket :: .mark .closeBracket :: w)
  | absent {t : TypeExpr} {span : Span} {w : List Piece} (h : TypeWrites t w) :
      ExprWrites .primary (.absent t span) (.word .noWord :: w)
  | unary {op : UnaryOp} {e : Expr} {span : Span} {w : List Piece} (h : ExprWrites .unary e w) :
      ExprWrites .unary (.unary op e span) (.terminal op.terminal :: w)
  | binary {op : BinaryOp} {l r : Expr} {span : Span} {w u : List Piece} {p q : Power}
      (hleft : ExprWrites p l w) (hp : op.tightness.TakesLeft p)
      (hright : ExprWrites q r u) (hq : op.tightness.TakesRight q) :
      ExprWrites op.tightness (.binary op l r span) (w ++ .mark op.mark :: u)
  | conditional {test yes no : Expr} {span : Span} {w u v : List Piece} {p q : Power}
      (htest : ExprWrites p test w) (hp : Power.conditional.TakesLeft p)
      (hyes : ExprWrites .weakest yes u)
      (hno : ExprWrites q no v) (hq : Power.conditional.TakesRight q) :
      ExprWrites .conditional (.conditional test yes no span)
        (w ++ .mark .question :: (u ++ .mark .colon :: v))
  | call {callee : Expr} {args : List Expr} {span : Span} {w u : List Piece}
      (hcallee : ExprWrites .call callee w) (hargs : Closed (ExprWrites .weakest) args u) :
      ExprWrites .call (.call callee args span)
        (w ++ .mark .openParen :: (u ++ [.mark .closeParen]))
  | subscript {items index : Expr} {span : Span} {w u : List Piece}
      (hitems : ExprWrites .call items w) (hindex : ExprWrites .weakest index u) :
      ExprWrites .call (.subscript items index span)
        (w ++ .mark .openBracket :: (u ++ [.mark .closeBracket]))
  | member {object : Expr} {field : String} {chained : Bool} {span : Span} {w : List Piece}
      (hobject : ExprWrites .call object w) :
      ExprWrites .call (.member object field chained span)
        (w ++ [.mark (if chained then .questionDot else .dot), .name field])

/-! ## Statements -/

/-- The pieces write a name with its type. -/
inductive BindingWrites : Binding → List Piece → Prop
  | mk {s : String} {t : TypeExpr} {span : Span} {w : List Piece} (h : TypeWrites t w) :
      BindingWrites ⟨s, t, span⟩ (.name s :: .mark .colon :: w)

/-- The pieces write the type of a result, if there is one. -/
inductive ResultWrites : Option TypeExpr → List Piece → Prop
  | none : ResultWrites none []
  | some {t : TypeExpr} {w : List Piece} (h : TypeWrites t w) :
      ResultWrites (some t) (.mark .colon :: w)

mutual

/-- The pieces write the statement. -/
inductive StmtWrites : Stmt → List Piece → Prop
  | declare {x : String} {isConstant byReference : Bool} {e : Expr} {span : Span} {w : List Piece}
      (h : ExprWrites .weakest e w) :
      StmtWrites (.declare x isConstant byReference e span)
        (.word (if isConstant then .constWord else .letWord) :: .name x ::
          .mark (if byReference then .leftArrow else .assign) :: (w ++ [.mark .semicolon]))
  | struct {x : String} {fields : List Binding} {span : Span} {w : List Piece}
      (h : Joined (WithComma BindingWrites) fields w) :
      StmtWrites (.struct x fields span)
        (.word .structWord :: .name x :: .mark .openCurly :: (w ++ [.mark .closeCurly]))
  | function {x : String} {params : List Binding} {result : Option TypeExpr} {body : Block}
      {span : Span} {w u v : List Piece} (hparams : Closed BindingWrites params w)
      (hresult : ResultWrites result u) (hbody : BlockWrites body v) :
      StmtWrites (.function x params result body span)
        (.word .fnWord :: .name x :: .mark .openParen :: (w ++ .mark .closeParen :: (u ++ v)))
  | assign {target value : Expr} {byReference : Bool} {span : Span} {w u : List Piece}
      (htarget : ExprWrites .weakest target w) (hvalue : ExprWrites .weakest value u) :
      StmtWrites (.assign target value byReference span)
        (w ++ .mark (if byReference then .leftArrow else .assign) :: (u ++ [.mark .semicolon]))
  | increment {target : Expr} {span : Span} {w : List Piece} (h : ExprWrites .weakest target w) :
      StmtWrites (.increment target span) (w ++ [.mark .plusPlus, .mark .semicolon])
  | decrement {target : Expr} {span : Span} {w : List Piece} (h : ExprWrites .weakest target w) :
      StmtWrites (.decrement target span) (w ++ [.mark .minusMinus, .mark .semicolon])
  | breakLoop {span : Span} :
      StmtWrites (.breakLoop span) [.word .breakWord, .mark .semicolon]
  | leave {span : Span} :
      StmtWrites (.giveBack none span) [.word .returnWord, .mark .semicolon]
  | giveBack {e : Expr} {span : Span} {w : List Piece} (h : ExprWrites .weakest e w) :
      StmtWrites (.giveBack (some e) span) (.word .returnWord :: (w ++ [.mark .semicolon]))
  | branch {test : Expr} {body : Block} {rest : Alternative} {span : Span} {w u v : List Piece}
      (htest : ExprWrites .weakest test w) (hbody : BlockWrites body u)
      (hrest : AlternativeWrites rest v) :
      StmtWrites (.branch test body rest span) (.word .ifWord :: (w ++ (u ++ v)))
  | whileLoop {test : Expr} {body : Block} {span : Span} {w u : List Piece}
      (htest : ExprWrites .weakest test w) (hbody : BlockWrites body u) :
      StmtWrites (.whileLoop test body span) (.word .whileWord :: (w ++ u))
  | repeatLoop {count : Expr} {body : Block} {span : Span} {w u : List Piece}
      (hcount : ExprWrites .weakest count w) (hbody : BlockWrites body u) :
      StmtWrites (.repeatLoop count body span) (.word .repeatWord :: (w ++ u))
  | rangeLoop {x : String} {low high : Expr} {op : RangeOp} {body : Block} {span : Span}
      {w u v : List Piece} (hlow : ExprWrites .weakest low w) (hhigh : ExprWrites .weakest high u)
      (hbody : BlockWrites body v) :
      StmtWrites (.rangeLoop x low op high body span)
        (.word .forWord :: .name x :: .word .inWord :: (w ++ .mark op.mark :: (u ++ v)))
  | eachLoop {x : String} {collection : Expr} {body : Block} {span : Span} {w u : List Piece}
      (hcollection : ExprWrites .weakest collection w) (hbody : BlockWrites body u) :
      StmtWrites (.eachLoop x collection body span)
        (.word .forWord :: .name x :: .word .inWord :: (w ++ u))
  | perform {e : Expr} {span : Span} {w : List Piece} (h : ExprWrites .weakest e w)
      (hcall : Parse.isCall e = true) :
      StmtWrites (.perform e span) (w ++ [.mark .semicolon])

/-- The pieces write the block, braces included. -/
inductive BlockWrites : Block → List Piece → Prop
  | mk {ss : List Stmt} {span : Span} {w : List Piece} (h : Joined StmtWrites ss w) :
      BlockWrites (.mk ss span) (.mark .openCurly :: (w ++ [.mark .closeCurly]))

/-- The pieces write what follows the first arm of a branch. -/
inductive AlternativeWrites : Alternative → List Piece → Prop
  | nothing : AlternativeWrites .nothing []
  | otherwise {body : Block} {w : List Piece} (h : BlockWrites body w) :
      AlternativeWrites (.otherwise body) (.word .elseWord :: w)
  | elseIf {test : Expr} {body : Block} {rest : Alternative} {span : Span} {w u v : List Piece}
      (htest : ExprWrites .weakest test w) (hbody : BlockWrites body u)
      (hrest : AlternativeWrites rest v) :
      AlternativeWrites (.elseIf test body rest span)
        (.word .elseWord :: .word .ifWord :: (w ++ (u ++ v)))

end

end Quill
