import Quill.Proofs.Phrase
import Quill.Proofs.Word

/-!
# Printing trees

`print` writes a tree as terminals. It puts an operand in parentheses only if the operand is looser
than its place asks, and it always does so with `no T` and `[]T`: an annotation takes every `?`
behind it, so that nothing may follow one within an expression.

`Printable` says which trees can be printed: those in which nothing has to be written that the
grammar has no form for. `unplaced` forgets the spans of a tree.

How a float is written is left open; all that is asked is that its text reads back as the float.

Results:
* `readInt64?_toString`: the digits of an integer read back as it.
* `TypeExpr.exists_head`, `Expr.exists_head`: what the terminals of a tree start with.
-/

namespace Quill

/-! ## Digits -/

namespace Number

theorem splitSign_of_isDigit {cs : List Char} (h : ∀ c ∈ cs, c.isDigit) :
    splitSign cs = (false, cs) := by
  unfold splitSign
  split
  · exact absurd (h '-' (by simp)) (by decide)
  · exact absurd (h '+' (by simp)) (by decide)
  · rfl

theorem ofDigits_toDigits (n : Nat) : ofDigits (Nat.toDigits 10 n) = n := by
  have h := Nat.ofDigitChars_ten_toDigits (n := n)
  rw [Nat.ofDigitChars_eq_foldl] at h
  exact h

/-- **The digits of an integer read back as it.** -/
theorem readInt64?_toString {n : Int64} (h : 0 ≤ n) :
    readInt64? (toString n.toInt.toNat) = some n := by
  have hdigits : ∀ c ∈ Nat.toDigits 10 n.toInt.toNat, c.isDigit := fun c hc =>
    Nat.isDigit_of_mem_toDigits (by decide) (by decide) hc
  have hnatural : natural? (Nat.toDigits 10 n.toInt.toNat) = some n.toInt.toNat := by
    unfold natural?
    rw [if_pos ⟨Nat.toDigits_ne_nil, List.all_eq_true.mpr hdigits⟩, ofDigits_toDigits]
  have hnonneg : ((n.toInt.toNat : Nat) : Int) = n.toInt :=
    Int.toNat_of_nonneg (by simpa using Int64.le_iff_toInt_le.mp h)
  have hinteger : integer? (Nat.toDigits 10 n.toInt.toNat) = some n.toInt := by
    unfold integer?
    rw [splitSign_of_isDigit hdigits]
    simp only [hnatural]
    exact congrArg some hnonneg
  rw [readInt64?, Nat.toString_eq_ofList_toDigits, String.toList_ofList, hinteger, Option.bind_some,
    ofInt?_toInt]

end Number

namespace Syntax

/-! ## Trees without places -/

mutual

/-- The annotation without places. -/
def TypeExpr.unplaced : TypeExpr → TypeExpr
  | .named s _ => .named s .nowhere
  | .array t _ => .array t.unplaced .nowhere
  | .optional t _ => .optional t.unplaced .nowhere
  | .sum ts _ => .sum (TypeExpr.allUnplaced ts) .nowhere
  | .function ps r _ => .function (TypeExpr.allUnplaced ps) r.unplaced .nowhere

/-- The annotations without places. -/
def TypeExpr.allUnplaced : List TypeExpr → List TypeExpr
  | [] => []
  | t :: ts => t.unplaced :: TypeExpr.allUnplaced ts

end

mutual

/-- The expression without places. -/
def Expr.unplaced : Expr → Expr
  | .int n _ => .int n .nowhere
  | .float x _ => .float x .nowhere
  | .string s _ => .string s .nowhere
  | .bool b _ => .bool b .nowhere
  | .symbol s _ => .symbol s .nowhere
  | .binary op l r _ => .binary op l.unplaced r.unplaced .nowhere
  | .unary op e _ => .unary op e.unplaced .nowhere
  | .conditional test yes no _ => .conditional test.unplaced yes.unplaced no.unplaced .nowhere
  | .array es _ => .array (Expr.allUnplaced es) .nowhere
  | .emptyArray t _ => .emptyArray t.unplaced .nowhere
  | .absent t _ => .absent t.unplaced .nowhere
  | .subscript items index _ => .subscript items.unplaced index.unplaced .nowhere
  | .member object field chained _ => .member object.unplaced field chained .nowhere
  | .call callee args _ => .call callee.unplaced (Expr.allUnplaced args) .nowhere

/-- The expressions without places. -/
def Expr.allUnplaced : List Expr → List Expr
  | [] => []
  | e :: es => e.unplaced :: Expr.allUnplaced es

end

/-- The name with its type, without places. -/
def Binding.unplaced (b : Binding) : Binding := ⟨b.name, b.type.unplaced, .nowhere⟩

mutual

/-- The statement without places. -/
def Stmt.unplaced : Stmt → Stmt
  | .declare x isConstant byReference e _ => .declare x isConstant byReference e.unplaced .nowhere
  | .struct x fields _ => .struct x (fields.map Binding.unplaced) .nowhere
  | .function x params result body _ =>
    .function x (params.map Binding.unplaced) (result.map TypeExpr.unplaced) body.unplaced .nowhere
  | .assign target value byReference _ =>
    .assign target.unplaced value.unplaced byReference .nowhere
  | .increment target _ => .increment target.unplaced .nowhere
  | .decrement target _ => .decrement target.unplaced .nowhere
  | .breakLoop _ => .breakLoop .nowhere
  | .giveBack value _ => .giveBack (value.map Expr.unplaced) .nowhere
  | .branch test body rest _ => .branch test.unplaced body.unplaced rest.unplaced .nowhere
  | .whileLoop test body _ => .whileLoop test.unplaced body.unplaced .nowhere
  | .repeatLoop count body _ => .repeatLoop count.unplaced body.unplaced .nowhere
  | .rangeLoop x low op high body _ =>
    .rangeLoop x low.unplaced op high.unplaced body.unplaced .nowhere
  | .eachLoop x collection body _ => .eachLoop x collection.unplaced body.unplaced .nowhere
  | .perform e _ => .perform e.unplaced .nowhere

/-- The block without places. -/
def Block.unplaced : Block → Block
  | .mk ss _ => .mk (Stmt.allUnplaced ss) .nowhere

/-- What follows the first arm of a branch, without places. -/
def Alternative.unplaced : Alternative → Alternative
  | .nothing => .nothing
  | .otherwise body => .otherwise body.unplaced
  | .elseIf test body rest _ => .elseIf test.unplaced body.unplaced rest.unplaced .nowhere

/-- The statements without places. -/
def Stmt.allUnplaced : List Stmt → List Stmt
  | [] => []
  | s :: ss => s.unplaced :: Stmt.allUnplaced ss

end

@[simp] theorem TypeExpr.allUnplaced_eq (ts : List TypeExpr) :
    TypeExpr.allUnplaced ts = ts.map TypeExpr.unplaced := by
  induction ts with
  | nil => rfl
  | cons t ts ih => rw [TypeExpr.allUnplaced, ih, List.map_cons]

@[simp] theorem Expr.allUnplaced_eq (es : List Expr) :
    Expr.allUnplaced es = es.map Expr.unplaced := by
  induction es with
  | nil => rfl
  | cons e es ih => rw [Expr.allUnplaced, ih, List.map_cons]

@[simp] theorem Stmt.allUnplaced_eq (ss : List Stmt) :
    Stmt.allUnplaced ss = ss.map Stmt.unplaced := by
  induction ss with
  | nil => rfl
  | cons s ss ih => rw [Stmt.allUnplaced, ih, List.map_cons]

/-! ## Terminals of trees -/

/-- Items with commas between them. -/
def commas : List (List Terminal) → List Terminal
  | [] => []
  | [w] => w
  | w :: u :: ws => w ++ .mark .comma :: commas (u :: ws)

/-- The terminals in parentheses. -/
def parenthesized (w : List Terminal) : List Terminal :=
  .mark .openParen :: (w ++ [.mark .closeParen])

/-- An operand: in parentheses, unless it is tight enough for its place. -/
def operand (tight : Prop) [Decidable tight] (w : List Terminal) : List Terminal :=
  if tight then w else parenthesized w

mutual

/-- The terminals of an annotation. -/
def TypeExpr.print : TypeExpr → List Terminal
  | .named s _ => [.name s]
  | .array t _ => .mark .openBracket :: (t.print ++ [.mark .closeBracket])
  | .optional t _ => t.print ++ [.mark .question]
  | .sum ts _ => .mark .less :: (commas (TypeExpr.prints ts) ++ [.mark .greater])
  | .function ps r _ =>
    .mark .openParen :: (commas (TypeExpr.prints ps) ++
      .mark .closeParen :: .mark .arrow :: r.print)

/-- The terminals of each annotation. -/
def TypeExpr.prints : List TypeExpr → List (List Terminal)
  | [] => []
  | t :: ts => t.print :: TypeExpr.prints ts

end

/-- How tightly an expression holds together without parentheses. An expression that ends with an
annotation is as loose as can be. -/
def Expr.level : Expr → Power
  | .int _ _ | .float _ _ | .string _ _ | .bool _ _ | .symbol _ _ | .array _ _ => .primary
  | .subscript _ _ _ | .member _ _ _ _ | .call _ _ _ => .call
  | .unary _ _ _ => .unary
  | .binary op _ _ _ => op.tightness
  | .conditional _ _ _ _ => .conditional
  | .emptyArray _ _ | .absent _ _ => .weakest

mutual

/-- The terminals of an expression, with no more parentheses than its operators need. Floats are
written as `text` says. -/
def Expr.print (text : Float → String) : Expr → List Terminal
  | .int n _ => [.integer (toString n.toInt.toNat)]
  | .float x _ => [.float (text x)]
  | .string s _ => [.string s]
  | .bool b _ => [.word (if b then .trueWord else .falseWord)]
  | .symbol s _ => [.name s]
  | .binary op l r _ =>
    operand (op.tightness.TakesLeft l.level) (l.print text) ++
      .mark op.mark :: operand (op.tightness.TakesRight r.level) (r.print text)
  | .unary op e _ => op.terminal :: operand (.unary ≤ e.level) (e.print text)
  | .conditional test yes no _ =>
    operand (Power.conditional.TakesLeft test.level) (test.print text) ++
      .mark .question :: (operand (.weakest < yes.level) (yes.print text) ++
        .mark .colon :: operand (Power.conditional.TakesRight no.level) (no.print text))
  | .array es _ =>
    .mark .openBracket :: (commas (Expr.prints text es) ++ [.mark .closeBracket])
  | .emptyArray t _ => .mark .openBracket :: .mark .closeBracket :: t.print
  | .absent t _ => .word .noWord :: t.print
  | .subscript items index _ =>
    operand (Power.call.TakesLeft items.level) (items.print text) ++
      .mark .openBracket :: (index.print text ++ [.mark .closeBracket])
  | .member object field chained _ =>
    operand (Power.call.TakesLeft object.level) (object.print text) ++
      [.mark (if chained then .questionDot else .dot), .name field]
  | .call callee args _ =>
    operand (Power.call.TakesLeft callee.level) (callee.print text) ++
      .mark .openParen :: (commas (Expr.prints text args) ++ [.mark .closeParen])

/-- The terminals of each expression. -/
def Expr.prints (text : Float → String) : List Expr → List (List Terminal)
  | [] => []
  | e :: es => e.print text :: Expr.prints text es

end

/-- The terminals of a name with its type. -/
def Binding.print (b : Binding) : List Terminal := .name b.name :: .mark .colon :: b.type.print

/-- The terminals of the type of a result, if there is one. -/
def printResult : Option TypeExpr → List Terminal
  | none => []
  | some t => .mark .colon :: t.print

mutual

/-- The terminals of a statement. -/
def Stmt.print (text : Float → String) : Stmt → List Terminal
  | .declare x isConstant byReference e _ =>
    .word (if isConstant then .constWord else .letWord) :: .name x ::
      .mark (if byReference then .leftArrow else .assign) :: (e.print text ++ [.mark .semicolon])
  | .struct x fields _ =>
    .word .structWord :: .name x :: .mark .openCurly ::
      (commas (fields.map Binding.print) ++ [.mark .closeCurly])
  | .function x params result body _ =>
    .word .fnWord :: .name x :: .mark .openParen :: (commas (params.map Binding.print) ++
      .mark .closeParen :: (printResult result ++ body.print text))
  | .assign target value byReference _ =>
    target.print text ++ .mark (if byReference then .leftArrow else .assign) ::
      (value.print text ++ [.mark .semicolon])
  | .increment target _ => target.print text ++ [.mark .plusPlus, .mark .semicolon]
  | .decrement target _ => target.print text ++ [.mark .minusMinus, .mark .semicolon]
  | .breakLoop _ => [.word .breakWord, .mark .semicolon]
  | .giveBack none _ => [.word .returnWord, .mark .semicolon]
  | .giveBack (some e) _ => .word .returnWord :: (e.print text ++ [.mark .semicolon])
  | .branch test body rest _ =>
    .word .ifWord :: (test.print text ++ (body.print text ++ rest.print text))
  | .whileLoop test body _ => .word .whileWord :: (test.print text ++ body.print text)
  | .repeatLoop count body _ => .word .repeatWord :: (count.print text ++ body.print text)
  | .rangeLoop x low op high body _ =>
    .word .forWord :: .name x :: .word .inWord :: (low.print text ++
      .mark op.mark :: (high.print text ++ body.print text))
  | .eachLoop x collection body _ =>
    .word .forWord :: .name x :: .word .inWord :: (collection.print text ++ body.print text)
  | .perform e _ => e.print text ++ [.mark .semicolon]

/-- The terminals of a block, braces included. -/
def Block.print (text : Float → String) : Block → List Terminal
  | .mk ss _ => .mark .openCurly :: (Stmt.prints text ss ++ [.mark .closeCurly])

/-- The terminals of what follows the first arm of a branch. -/
def Alternative.print (text : Float → String) : Alternative → List Terminal
  | .nothing => []
  | .otherwise body => .word .elseWord :: body.print text
  | .elseIf test body rest _ =>
    .word .elseWord :: .word .ifWord :: (test.print text ++ (body.print text ++ rest.print text))

/-- The terminals of statements, one behind the other. -/
def Stmt.prints (text : Float → String) : List Stmt → List Terminal
  | [] => []
  | s :: ss => s.print text ++ Stmt.prints text ss

end

@[simp] theorem TypeExpr.prints_eq (ts : List TypeExpr) :
    TypeExpr.prints ts = ts.map TypeExpr.print := by
  induction ts with
  | nil => rfl
  | cons t ts ih => rw [TypeExpr.prints, ih, List.map_cons]

@[simp] theorem Expr.prints_eq (text : Float → String) (es : List Expr) :
    Expr.prints text es = es.map (Expr.print text) := by
  induction es with
  | nil => rfl
  | cons e es ih => rw [Expr.prints, ih, List.map_cons]

/-! ## Trees that can be printed -/

/-- Sums have alternatives, and a function type is no base of an optional type: the grammar has no
parentheses for annotations. -/
inductive TypeExpr.Printable : TypeExpr → Prop
  | named {s : String} {span : Span} : Printable (.named s span)
  | array {t : TypeExpr} {span : Span} (h : t.Printable) : Printable (.array t span)
  | optional {t : TypeExpr} {span : Span} (h : t.Printable) (hbase : t.isFunction = false) :
      Printable (.optional t span)
  | sum {ts : List TypeExpr} {span : Span} (hne : ts ≠ []) (h : ∀ t ∈ ts, t.Printable) :
      Printable (.sum ts span)
  | function {ps : List TypeExpr} {r : TypeExpr} {span : Span} (hparams : ∀ t ∈ ps, t.Printable)
      (hresult : r.Printable) : Printable (.function ps r span)

/-- Integers are not negative, the text of a float reads back as it, and arrays without a type have
elements. -/
inductive Expr.Printable (text : Float → String) : Expr → Prop
  | int {n : Int64} {span : Span} (h : 0 ≤ n) : Printable text (.int n span)
  | float {x : Float} {span : Span} (h : Number.readFloat? (text x) = some x) :
      Printable text (.float x span)
  | string {s : String} {span : Span} : Printable text (.string s span)
  | bool {b : Bool} {span : Span} : Printable text (.bool b span)
  | symbol {s : String} {span : Span} : Printable text (.symbol s span)
  | binary {op : BinaryOp} {l r : Expr} {span : Span} (hleft : l.Printable text)
      (hright : r.Printable text) : Printable text (.binary op l r span)
  | unary {op : UnaryOp} {e : Expr} {span : Span} (h : e.Printable text) :
      Printable text (.unary op e span)
  | conditional {test yes no : Expr} {span : Span} (htest : test.Printable text)
      (hyes : yes.Printable text) (hno : no.Printable text) :
      Printable text (.conditional test yes no span)
  | array {es : List Expr} {span : Span} (hne : es ≠ []) (h : ∀ e ∈ es, e.Printable text) :
      Printable text (.array es span)
  | emptyArray {t : TypeExpr} {span : Span} (h : t.Printable) : Printable text (.emptyArray t span)
  | absent {t : TypeExpr} {span : Span} (h : t.Printable) : Printable text (.absent t span)
  | subscript {items index : Expr} {span : Span} (hitems : items.Printable text)
      (hindex : index.Printable text) : Printable text (.subscript items index span)
  | member {object : Expr} {field : String} {chained : Bool} {span : Span}
      (hobject : object.Printable text) : Printable text (.member object field chained span)
  | call {callee : Expr} {args : List Expr} {span : Span} (hcallee : callee.Printable text)
      (hargs : ∀ e ∈ args, e.Printable text) : Printable text (.call callee args span)

mutual

/-- Its annotations and expressions can be printed, and only calls stand alone. -/
inductive Stmt.Printable (text : Float → String) : Stmt → Prop
  | declare {x : String} {isConstant byReference : Bool} {e : Expr} {span : Span}
      (h : e.Printable text) : Stmt.Printable text (.declare x isConstant byReference e span)
  | struct {x : String} {fields : List Binding} {span : Span}
      (h : ∀ b ∈ fields, b.type.Printable) : Stmt.Printable text (.struct x fields span)
  | function {x : String} {params : List Binding} {result : Option TypeExpr} {body : Block}
      {span : Span} (hparams : ∀ b ∈ params, b.type.Printable)
      (hresult : ∀ t ∈ result, t.Printable) (hbody : Block.Printable text body) :
      Stmt.Printable text (.function x params result body span)
  | assign {target value : Expr} {byReference : Bool} {span : Span}
      (htarget : target.Printable text) (hvalue : value.Printable text) :
      Stmt.Printable text (.assign target value byReference span)
  | increment {target : Expr} {span : Span} (h : target.Printable text) :
      Stmt.Printable text (.increment target span)
  | decrement {target : Expr} {span : Span} (h : target.Printable text) :
      Stmt.Printable text (.decrement target span)
  | breakLoop {span : Span} : Stmt.Printable text (.breakLoop span)
  | giveBack {value : Option Expr} {span : Span} (h : ∀ e ∈ value, e.Printable text) :
      Stmt.Printable text (.giveBack value span)
  | branch {test : Expr} {body : Block} {rest : Alternative} {span : Span}
      (htest : test.Printable text) (hbody : Block.Printable text body)
      (hrest : Alternative.Printable text rest) : Stmt.Printable text (.branch test body rest span)
  | whileLoop {test : Expr} {body : Block} {span : Span} (htest : test.Printable text)
      (hbody : Block.Printable text body) : Stmt.Printable text (.whileLoop test body span)
  | repeatLoop {count : Expr} {body : Block} {span : Span} (hcount : count.Printable text)
      (hbody : Block.Printable text body) : Stmt.Printable text (.repeatLoop count body span)
  | rangeLoop {x : String} {low high : Expr} {op : RangeOp} {body : Block} {span : Span}
      (hlow : low.Printable text) (hhigh : high.Printable text)
      (hbody : Block.Printable text body) :
      Stmt.Printable text (.rangeLoop x low op high body span)
  | eachLoop {x : String} {collection : Expr} {body : Block} {span : Span}
      (hcollection : collection.Printable text) (hbody : Block.Printable text body) :
      Stmt.Printable text (.eachLoop x collection body span)
  | perform {e : Expr} {span : Span} (h : e.Printable text) (hcall : Parse.isCall e = true) :
      Stmt.Printable text (.perform e span)

/-- All statements of the block can be printed. -/
inductive Block.Printable (text : Float → String) : Block → Prop
  | mk {ss : List Stmt} {span : Span} (h : ∀ s ∈ ss, Stmt.Printable text s) :
      Block.Printable text (.mk ss span)

/-- All that follows the first arm of a branch can be printed. -/
inductive Alternative.Printable (text : Float → String) : Alternative → Prop
  | nothing : Alternative.Printable text .nothing
  | otherwise {body : Block} (h : Block.Printable text body) :
      Alternative.Printable text (.otherwise body)
  | elseIf {test : Expr} {body : Block} {rest : Alternative} {span : Span}
      (htest : test.Printable text) (hbody : Block.Printable text body)
      (hrest : Alternative.Printable text rest) :
      Alternative.Printable text (.elseIf test body rest span)

end

/-! ## How printed trees start -/

/-- An annotation starts with a terminal that starts annotations. -/
theorem TypeExpr.exists_head : ∀ t : TypeExpr, ∃ x xs, t.print = x :: xs ∧
    (Grammar.standardTypeStart x.kind).isSome
  | .named _ _ => ⟨_, _, rfl, rfl⟩
  | .array _ _ => ⟨_, _, rfl, rfl⟩
  | .optional base _ => by
    obtain ⟨x, xs, h, hx⟩ := base.exists_head
    exact ⟨x, xs ++ [.mark .question], by rw [print, h]; rfl, hx⟩
  | .sum _ _ => ⟨_, _, rfl, rfl⟩
  | .function _ _ _ => ⟨_, _, rfl, rfl⟩

/-- An operand starts as the expression does, or with a parenthesis. -/
theorem exists_head_operand {tight : Prop} [Decidable tight] {w : List Terminal} (v : List Terminal)
    (h : ∃ x xs, w = x :: xs ∧ (Grammar.standardExprStart x.kind).isSome) :
    ∃ x xs, operand tight w ++ v = x :: xs ∧ (Grammar.standardExprStart x.kind).isSome := by
  obtain ⟨x, xs, rfl, hx⟩ := h
  unfold operand
  split_ifs
  · exact ⟨x, xs ++ v, rfl, hx⟩
  · exact ⟨.mark .openParen, _, rfl, rfl⟩

/-- An expression starts with a terminal that starts expressions. -/
theorem Expr.exists_head (text : Float → String) : ∀ e : Expr, ∃ x xs, e.print text = x :: xs ∧
    (Grammar.standardExprStart x.kind).isSome
  | .int _ _ => ⟨_, _, rfl, rfl⟩
  | .float _ _ => ⟨_, _, rfl, rfl⟩
  | .string _ _ => ⟨_, _, rfl, rfl⟩
  | .bool b _ => ⟨_, _, rfl, by cases b <;> rfl⟩
  | .symbol _ _ => ⟨_, _, rfl, rfl⟩
  | .binary _ l _ _ => exists_head_operand _ (l.exists_head text)
  | .unary op _ _ => ⟨_, _, rfl, by cases op <;> rfl⟩
  | .conditional test _ _ _ => exists_head_operand _ (test.exists_head text)
  | .array _ _ => ⟨_, _, rfl, rfl⟩
  | .emptyArray _ _ => ⟨_, _, rfl, rfl⟩
  | .absent _ _ => ⟨_, _, rfl, rfl⟩
  | .subscript items _ _ => exists_head_operand _ (items.exists_head text)
  | .member object _ _ _ => exists_head_operand _ (object.exists_head text)
  | .call callee _ _ => exists_head_operand _ (callee.exists_head text)

/-- The terminal announces a statement or starts an expression. -/
def StartsStmt (x : Terminal) : Prop :=
  (Grammar.standardStmt x.kind).isSome ∨ (Grammar.standardExprStart x.kind).isSome

theorem exists_head_plain {text : Float → String} (e : Expr) (v : List Terminal) :
    ∃ x xs, e.print text ++ v = x :: xs ∧ StartsStmt x := by
  obtain ⟨x, xs, hx, hstart⟩ := e.exists_head text
  exact ⟨x, xs ++ v, by rw [hx]; rfl, .inr hstart⟩

theorem Stmt.exists_head (text : Float → String) (s : Stmt) :
    ∃ x xs, s.print text = x :: xs ∧ StartsStmt x := by
  cases s with
  | assign target =>
    rw [print]
    exact exists_head_plain target _
  | increment target => exact exists_head_plain target _
  | decrement target => exact exists_head_plain target _
  | perform e => exact exists_head_plain e _
  | declare x isConstant => exact ⟨_, _, rfl, .inl (by cases isConstant <;> rfl)⟩
  | giveBack value => cases value <;> exact ⟨_, _, rfl, .inl rfl⟩
  | _ => exact ⟨_, _, rfl, .inl rfl⟩

theorem Block.print_eq (text : Float → String) (b : Block) : b.print text =
    .mark .openCurly :: (Stmt.prints text b.body ++ [.mark .closeCurly]) := by
  cases b
  rfl

theorem Block.Printable.body {text : Float → String} {b : Block} (h : b.Printable text) :
    ∀ s ∈ b.body, s.Printable text := by
  cases h with
  | mk h => exact h

theorem Block.unplaced_eq (b : Block) : b.unplaced = .mk (b.body.map Stmt.unplaced) .nowhere := by
  cases b
  rw [Block.unplaced, Stmt.allUnplaced_eq]
  rfl

theorem length_le_prints (text : Float → String) {s : Stmt} {ss : List Stmt} (h : s ∈ ss) :
    (s.print text).length ≤ (Stmt.prints text ss).length := by
  induction ss with
  | nil => cases h
  | cons t ss ih =>
    rw [Stmt.prints, List.length_append]
    rcases List.mem_cons.mp h with rfl | h
    · omega
    · have := ih h
      omega

theorem length_le_length_prints (text : Float → String) (ss : List Stmt) :
    ss.length ≤ (Stmt.prints text ss).length := by
  induction ss with
  | nil => exact Nat.zero_le _
  | cons s ss ih =>
    obtain ⟨x, xs, hx, -⟩ := s.exists_head text
    rw [Stmt.prints, hx, List.length_append, List.length_cons, List.length_cons]
    omega

end Syntax

end Quill
