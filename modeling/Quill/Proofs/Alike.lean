import Quill.Proofs.Taking

/-!
# Trees that differ in their places only

A `Correspondence` relates places of two texts: those where something starts, and those where
something ends. Two tokens, two cursors or two trees are `Alike` under it if they are the same but
for their places, and the places correspond.

A correspondence may relate any two places: then only the shape of trees is compared. Or it relates
the true places of one text to themselves: then a tree that is alike to itself has true places only.

Results:
* `Expr.Alike.span` and its like: the spans of trees that are alike correspond.
* **`Stmt.unplaced_eq_of_alike`** and its like: trees that are alike are the same without places.
* `Stmt.alike_self`, `Stmt.eq_of_alike` and their like: where places correspond to themselves only,
  a tree is alike to itself and to no other.
-/

namespace Quill

/-- Which places of two texts correspond: as places where something starts, and as places where
something ends. -/
structure Correspondence where
  starts : Position → Position → Prop
  ends : Position → Position → Prop

namespace Correspondence

/-- The spans start and end at places that correspond. -/
structure Spans (R : Correspondence) (s t : Span) : Prop where
  start : R.starts s.start t.start
  stop : R.ends s.stop t.stop

end Correspondence

variable {R : Correspondence}

/-! ## Tokens and cursors -/

/-- The tokens say the same, at places that correspond. The place in the middle of `>>` counts as
well, since the token may be cut there. -/
structure Token.Alike (R : Correspondence) (t u : Token) : Prop where
  kind : t.kind = u.kind
  value : t.value = u.value
  span : R.Spans t.span u.span
  middle : t.kind = .mark .shiftRight →
    R.starts t.span.start.succ u.span.start.succ ∧ R.ends t.span.start.succ u.span.start.succ

/-- The closing tokens say the same, at places that correspond. -/
structure EndToken.Alike (R : Correspondence) (t u : EndToken) : Prop where
  value : t.value = u.value
  span : R.Spans t.span u.span

/-- The cursors stand before tokens that are alike. -/
structure Cursor.Alike (R : Correspondence) (c d : Cursor) : Prop where
  previousEnd : R.ends c.previousEnd d.previousEnd
  rest : List.Forall₂ (Token.Alike R) c.rest d.rest
  last : c.last.Alike R d.last

namespace Cursor.Alike

variable {c d : Cursor}

theorem current (h : c.Alike R d) : c.current.Alike R d.current := by
  obtain ⟨e, ts, last⟩ := c
  obtain ⟨e', us, last'⟩ := d
  obtain ⟨-, hrest, hlast⟩ := h
  cases hrest with
  | nil => exact ⟨rfl, hlast.value, hlast.span, by intro h; cases h⟩
  | cons ht _ => exact ht

theorem kind (h : c.Alike R d) : c.kind = d.kind := h.current.kind

theorem advance (h : c.Alike R d) : c.advance.Alike R d.advance := by
  obtain ⟨e, ts, last⟩ := c
  obtain ⟨e', us, last'⟩ := d
  obtain ⟨hend, hrest, hlast⟩ := h
  cases hrest with
  | nil => exact ⟨hend, .nil, hlast⟩
  | cons ht hts => exact ⟨ht.span.stop, hts, hlast⟩

/-- The halves of `>>` are alike, since their places are. -/
theorem splitShift (h : c.Alike R d) : c.splitShift.Alike R d.splitShift := by
  by_cases hkind : c.kind = .mark .shiftRight
  · obtain ⟨e, ts, last⟩ := c
    obtain ⟨e', us, last'⟩ := d
    obtain ⟨hend, hrest, hlast⟩ := h
    cases hrest with
    | nil => cases hkind
    | @cons t u ts us ht hts =>
      obtain ⟨kind, value, start, stop⟩ := t
      obtain ⟨kind', value', start', stop'⟩ := u
      obtain rfl : kind = kind' := ht.kind
      obtain rfl : kind = .mark .shiftRight := hkind
      -- the first half ends in the middle, and the second starts there
      obtain ⟨hmiddle, hmiddle'⟩ := ht.middle rfl
      refine ⟨hend, .cons ?_ (.cons ?_ hts), hlast⟩
      · exact ⟨rfl, rfl, ⟨ht.span.start, hmiddle'⟩, by intro h; cases h⟩
      · exact ⟨rfl, rfl, ⟨hmiddle, ht.span.stop⟩, by intro h; cases h⟩
  · have hkind' : d.kind ≠ .mark .shiftRight := by rwa [← h.kind]
    rw [splitShift_of_kind hkind, splitShift_of_kind hkind']
    exact h

/-- Cursors that are alike have the same weight. -/
theorem weight (h : c.Alike R d) : c.weight = d.weight := by
  have hweight : ∀ {ts us : List Token}, List.Forall₂ (Token.Alike R) ts us →
      ts.foldr (fun t n => Cursor.tokenWeight t + n) 1 =
        us.foldr (fun t n => Cursor.tokenWeight t + n) 1 := by
    intro ts us hts
    induction hts with
    | nil => rfl
    | cons ht _ ih =>
      rw [List.foldr_cons, List.foldr_cons, ih, Cursor.tokenWeight, Cursor.tokenWeight, ht.kind]
  exact hweight h.rest

theorem budget (h : c.Alike R d) : c.budget = d.budget := congrArg (· + 1) h.weight

end Cursor.Alike

/-! ## Trees -/

namespace Syntax

/-- The annotations differ in their places only, and these correspond. -/
inductive TypeExpr.Alike (R : Correspondence) : TypeExpr → TypeExpr → Prop
  | named {x : String} {s t : Span} (h : R.Spans s t) : Alike R (.named x s) (.named x t)
  | array {a b : TypeExpr} {s t : Span} (helement : a.Alike R b) (h : R.Spans s t) :
      Alike R (.array a s) (.array b t)
  | optional {a b : TypeExpr} {s t : Span} (hbase : a.Alike R b) (h : R.Spans s t) :
      Alike R (.optional a s) (.optional b t)
  | sum {as bs : List TypeExpr} {s t : Span} (halternatives : List.Forall₂ (Alike R) as bs)
      (h : R.Spans s t) : Alike R (.sum as s) (.sum bs t)
  | function {as bs : List TypeExpr} {a b : TypeExpr} {s t : Span}
      (hparams : List.Forall₂ (Alike R) as bs) (hresult : a.Alike R b) (h : R.Spans s t) :
      Alike R (.function as a s) (.function bs b t)

/-- The expressions differ in their places only, and these correspond. -/
inductive Expr.Alike (R : Correspondence) : Expr → Expr → Prop
  | int {n : Int64} {s t : Span} (h : R.Spans s t) : Alike R (.int n s) (.int n t)
  | float {x : Float} {s t : Span} (h : R.Spans s t) : Alike R (.float x s) (.float x t)
  | string {x : String} {s t : Span} (h : R.Spans s t) : Alike R (.string x s) (.string x t)
  | bool {b : Bool} {s t : Span} (h : R.Spans s t) : Alike R (.bool b s) (.bool b t)
  | symbol {x : String} {s t : Span} (h : R.Spans s t) : Alike R (.symbol x s) (.symbol x t)
  | binary {op : BinaryOp} {a b a' b' : Expr} {s t : Span} (hleft : a.Alike R a')
      (hright : b.Alike R b') (h : R.Spans s t) : Alike R (.binary op a b s) (.binary op a' b' t)
  | unary {op : UnaryOp} {a b : Expr} {s t : Span} (hoperand : a.Alike R b) (h : R.Spans s t) :
      Alike R (.unary op a s) (.unary op b t)
  | conditional {a b c a' b' c' : Expr} {s t : Span} (htest : a.Alike R a') (hyes : b.Alike R b')
      (hno : c.Alike R c') (h : R.Spans s t) :
      Alike R (.conditional a b c s) (.conditional a' b' c' t)
  | array {as bs : List Expr} {s t : Span} (helements : List.Forall₂ (Alike R) as bs)
      (h : R.Spans s t) : Alike R (.array as s) (.array bs t)
  | emptyArray {a b : TypeExpr} {s t : Span} (helement : a.Alike R b) (h : R.Spans s t) :
      Alike R (.emptyArray a s) (.emptyArray b t)
  | absent {a b : TypeExpr} {s t : Span} (hbase : a.Alike R b) (h : R.Spans s t) :
      Alike R (.absent a s) (.absent b t)
  | subscript {a b a' b' : Expr} {s t : Span} (hitems : a.Alike R a') (hindex : b.Alike R b')
      (h : R.Spans s t) : Alike R (.subscript a b s) (.subscript a' b' t)
  | member {a b : Expr} {field : String} {chained : Bool} {s t : Span} (hobject : a.Alike R b)
      (h : R.Spans s t) : Alike R (.member a field chained s) (.member b field chained t)
  | call {a b : Expr} {as bs : List Expr} {s t : Span} (hcallee : a.Alike R b)
      (hargs : List.Forall₂ (Alike R) as bs) (h : R.Spans s t) :
      Alike R (.call a as s) (.call b bs t)

/-- The names with their types differ in their places only, and these correspond. -/
structure Binding.Alike (R : Correspondence) (a b : Binding) : Prop where
  name : a.name = b.name
  type : a.type.Alike R b.type
  span : R.Spans a.span b.span

mutual

/-- The statements differ in their places only, and these correspond. -/
inductive Stmt.Alike (R : Correspondence) : Stmt → Stmt → Prop
  | declare {x : String} {isConstant byReference : Bool} {a b : Expr} {s t : Span}
      (hvalue : a.Alike R b) (h : R.Spans s t) :
      Stmt.Alike R (.declare x isConstant byReference a s) (.declare x isConstant byReference b t)
  | struct {x : String} {as bs : List Binding} {s t : Span}
      (hfields : List.Forall₂ (Binding.Alike R) as bs) (h : R.Spans s t) :
      Stmt.Alike R (.struct x as s) (.struct x bs t)
  | function {x : String} {as bs : List Binding} {a b : Option TypeExpr} {body body' : Block}
      {s t : Span} (hparams : List.Forall₂ (Binding.Alike R) as bs)
      (hresult : Option.Rel (TypeExpr.Alike R) a b) (hbody : Block.Alike R body body')
      (h : R.Spans s t) : Stmt.Alike R (.function x as a body s) (.function x bs b body' t)
  | assign {a b a' b' : Expr} {byReference : Bool} {s t : Span} (htarget : a.Alike R a')
      (hvalue : b.Alike R b') (h : R.Spans s t) :
      Stmt.Alike R (.assign a b byReference s) (.assign a' b' byReference t)
  | increment {a b : Expr} {s t : Span} (htarget : a.Alike R b) (h : R.Spans s t) :
      Stmt.Alike R (.increment a s) (.increment b t)
  | decrement {a b : Expr} {s t : Span} (htarget : a.Alike R b) (h : R.Spans s t) :
      Stmt.Alike R (.decrement a s) (.decrement b t)
  | breakLoop {s t : Span} (h : R.Spans s t) : Stmt.Alike R (.breakLoop s) (.breakLoop t)
  | giveBack {a b : Option Expr} {s t : Span} (hvalue : Option.Rel (Expr.Alike R) a b)
      (h : R.Spans s t) : Stmt.Alike R (.giveBack a s) (.giveBack b t)
  | branch {a b : Expr} {body body' : Block} {rest rest' : Alternative} {s t : Span}
      (htest : a.Alike R b) (hbody : Block.Alike R body body')
      (hrest : Alternative.Alike R rest rest') (h : R.Spans s t) :
      Stmt.Alike R (.branch a body rest s) (.branch b body' rest' t)
  | whileLoop {a b : Expr} {body body' : Block} {s t : Span} (htest : a.Alike R b)
      (hbody : Block.Alike R body body') (h : R.Spans s t) :
      Stmt.Alike R (.whileLoop a body s) (.whileLoop b body' t)
  | repeatLoop {a b : Expr} {body body' : Block} {s t : Span} (hcount : a.Alike R b)
      (hbody : Block.Alike R body body') (h : R.Spans s t) :
      Stmt.Alike R (.repeatLoop a body s) (.repeatLoop b body' t)
  | rangeLoop {x : String} {op : RangeOp} {a b a' b' : Expr} {body body' : Block} {s t : Span}
      (hlow : a.Alike R a') (hhigh : b.Alike R b') (hbody : Block.Alike R body body')
      (h : R.Spans s t) : Stmt.Alike R (.rangeLoop x a op b body s) (.rangeLoop x a' op b' body' t)
  | eachLoop {x : String} {a b : Expr} {body body' : Block} {s t : Span}
      (hcollection : a.Alike R b) (hbody : Block.Alike R body body') (h : R.Spans s t) :
      Stmt.Alike R (.eachLoop x a body s) (.eachLoop x b body' t)
  | perform {a b : Expr} {s t : Span} (hcall : a.Alike R b) (h : R.Spans s t) :
      Stmt.Alike R (.perform a s) (.perform b t)

/-- The blocks differ in their places only, and these correspond. -/
inductive Block.Alike (R : Correspondence) : Block → Block → Prop
  | mk {as bs : List Stmt} {s t : Span} (hbody : List.Forall₂ (Stmt.Alike R) as bs)
      (h : R.Spans s t) : Block.Alike R (.mk as s) (.mk bs t)

/-- What follows the first arms of two branches differs in places only, and these correspond. -/
inductive Alternative.Alike (R : Correspondence) : Alternative → Alternative → Prop
  | nothing : Alternative.Alike R .nothing .nothing
  | otherwise {body body' : Block} (hbody : Block.Alike R body body') :
      Alternative.Alike R (.otherwise body) (.otherwise body')
  | elseIf {a b : Expr} {body body' : Block} {rest rest' : Alternative} {s t : Span}
      (htest : a.Alike R b) (hbody : Block.Alike R body body')
      (hrest : Alternative.Alike R rest rest') (h : R.Spans s t) :
      Alternative.Alike R (.elseIf a body rest s) (.elseIf b body' rest' t)

end

/-! ## The spans of trees that are alike -/

theorem TypeExpr.Alike.span {a b : TypeExpr} (h : a.Alike R b) : R.Spans a.span b.span := by
  cases h <;> assumption

theorem Expr.Alike.span {a b : Expr} (h : a.Alike R b) : R.Spans a.span b.span := by
  cases h <;> assumption

theorem Stmt.Alike.exists_spans {a b : Stmt} (h : a.Alike R b) : ∃ s t, R.Spans s t := by
  cases h <;> exact ⟨_, _, by assumption⟩

theorem Expr.Alike.isCall {a b : Expr} (h : a.Alike R b) : Parse.isCall a = Parse.isCall b := by
  cases h <;> rfl

/-! ## Without their places they are the same -/

mutual

theorem TypeExpr.unplaced_eq_of_alike : ∀ {a b : TypeExpr}, a.Alike R b → a.unplaced = b.unplaced
  | _, _, .named _ => rfl
  | _, _, .array helement _ => by
    rw [TypeExpr.unplaced, TypeExpr.unplaced, unplaced_eq_of_alike helement]
  | _, _, .optional hbase _ => by
    rw [TypeExpr.unplaced, TypeExpr.unplaced, unplaced_eq_of_alike hbase]
  | _, _, .sum halternatives _ => by
    rw [TypeExpr.unplaced, TypeExpr.unplaced, allUnplaced_eq_of_alike halternatives]
  | _, _, .function hparams hresult _ => by
    rw [TypeExpr.unplaced, TypeExpr.unplaced, allUnplaced_eq_of_alike hparams,
      unplaced_eq_of_alike hresult]

theorem TypeExpr.allUnplaced_eq_of_alike : ∀ {as bs : List TypeExpr},
    List.Forall₂ (TypeExpr.Alike R) as bs → TypeExpr.allUnplaced as = TypeExpr.allUnplaced bs
  | _, _, .nil => rfl
  | _, _, .cons hab has => by
    rw [allUnplaced, allUnplaced, unplaced_eq_of_alike hab, allUnplaced_eq_of_alike has]

end

mutual

theorem Expr.unplaced_eq_of_alike : ∀ {a b : Expr}, a.Alike R b → a.unplaced = b.unplaced
  | _, _, .int _ | _, _, .float _ | _, _, .string _ | _, _, .bool _ | _, _, .symbol _ => rfl
  | _, _, .binary hleft hright _ => by
    rw [Expr.unplaced, Expr.unplaced, unplaced_eq_of_alike hleft, unplaced_eq_of_alike hright]
  | _, _, .unary hoperand _ => by
    rw [Expr.unplaced, Expr.unplaced, unplaced_eq_of_alike hoperand]
  | _, _, .conditional htest hyes hno _ => by
    rw [Expr.unplaced, Expr.unplaced, unplaced_eq_of_alike htest, unplaced_eq_of_alike hyes,
      unplaced_eq_of_alike hno]
  | _, _, .array helements _ => by
    rw [Expr.unplaced, Expr.unplaced, allUnplaced_eq_of_alike helements]
  | _, _, .emptyArray helement _ => by
    rw [Expr.unplaced, Expr.unplaced, TypeExpr.unplaced_eq_of_alike helement]
  | _, _, .absent hbase _ => by
    rw [Expr.unplaced, Expr.unplaced, TypeExpr.unplaced_eq_of_alike hbase]
  | _, _, .subscript hitems hindex _ => by
    rw [Expr.unplaced, Expr.unplaced, unplaced_eq_of_alike hitems, unplaced_eq_of_alike hindex]
  | _, _, .member hobject _ => by
    rw [Expr.unplaced, Expr.unplaced, unplaced_eq_of_alike hobject]
  | _, _, .call hcallee hargs _ => by
    rw [Expr.unplaced, Expr.unplaced, unplaced_eq_of_alike hcallee, allUnplaced_eq_of_alike hargs]

theorem Expr.allUnplaced_eq_of_alike : ∀ {as bs : List Expr}, List.Forall₂ (Expr.Alike R) as bs →
    Expr.allUnplaced as = Expr.allUnplaced bs
  | _, _, .nil => rfl
  | _, _, .cons hab has => by
    rw [allUnplaced, allUnplaced, unplaced_eq_of_alike hab, allUnplaced_eq_of_alike has]

end

theorem TypeExpr.map_unplaced_eq_of_alike {a b : Option TypeExpr}
    (h : Option.Rel (TypeExpr.Alike R) a b) :
    a.map TypeExpr.unplaced = b.map TypeExpr.unplaced := by
  cases h with
  | none => rfl
  | some ht => rw [Option.map_some, Option.map_some, TypeExpr.unplaced_eq_of_alike ht]

theorem Expr.map_unplaced_eq_of_alike {a b : Option Expr} (h : Option.Rel (Expr.Alike R) a b) :
    a.map Expr.unplaced = b.map Expr.unplaced := by
  cases h with
  | none => rfl
  | some he => rw [Option.map_some, Option.map_some, Expr.unplaced_eq_of_alike he]

theorem Binding.unplaced_eq_of_alike {a b : Binding} (h : a.Alike R b) :
    a.unplaced = b.unplaced := by
  rw [Binding.unplaced, Binding.unplaced, h.name, TypeExpr.unplaced_eq_of_alike h.type]

theorem Binding.map_unplaced_eq_of_alike {as bs : List Binding}
    (h : List.Forall₂ (Binding.Alike R) as bs) :
    as.map Binding.unplaced = bs.map Binding.unplaced := by
  induction h with
  | nil => rfl
  | cons hab _ ih => rw [List.map_cons, List.map_cons, Binding.unplaced_eq_of_alike hab, ih]

mutual

theorem Stmt.unplaced_eq_of_alike : ∀ {a b : Stmt}, a.Alike R b → a.unplaced = b.unplaced
  | _, _, .breakLoop _ => rfl
  | _, _, .declare hvalue _ => by
    rw [Stmt.unplaced, Stmt.unplaced, Expr.unplaced_eq_of_alike hvalue]
  | _, _, .struct hfields _ => by
    rw [Stmt.unplaced, Stmt.unplaced, Binding.map_unplaced_eq_of_alike hfields]
  | _, _, .function hparams hresult hbody _ => by
    rw [Stmt.unplaced, Stmt.unplaced, Binding.map_unplaced_eq_of_alike hparams,
      TypeExpr.map_unplaced_eq_of_alike hresult, Block.unplaced_eq_of_alike hbody]
  | _, _, .assign htarget hvalue _ => by
    rw [Stmt.unplaced, Stmt.unplaced, Expr.unplaced_eq_of_alike htarget,
      Expr.unplaced_eq_of_alike hvalue]
  | _, _, .increment htarget _ => by
    rw [Stmt.unplaced, Stmt.unplaced, Expr.unplaced_eq_of_alike htarget]
  | _, _, .decrement htarget _ => by
    rw [Stmt.unplaced, Stmt.unplaced, Expr.unplaced_eq_of_alike htarget]
  | _, _, .giveBack hvalue _ => by
    rw [Stmt.unplaced, Stmt.unplaced, Expr.map_unplaced_eq_of_alike hvalue]
  | _, _, .branch htest hbody hrest _ => by
    rw [Stmt.unplaced, Stmt.unplaced, Expr.unplaced_eq_of_alike htest,
      Block.unplaced_eq_of_alike hbody, Alternative.unplaced_eq_of_alike hrest]
  | _, _, .whileLoop htest hbody _ => by
    rw [Stmt.unplaced, Stmt.unplaced, Expr.unplaced_eq_of_alike htest,
      Block.unplaced_eq_of_alike hbody]
  | _, _, .repeatLoop hcount hbody _ => by
    rw [Stmt.unplaced, Stmt.unplaced, Expr.unplaced_eq_of_alike hcount,
      Block.unplaced_eq_of_alike hbody]
  | _, _, .rangeLoop hlow hhigh hbody _ => by
    rw [Stmt.unplaced, Stmt.unplaced, Expr.unplaced_eq_of_alike hlow,
      Expr.unplaced_eq_of_alike hhigh, Block.unplaced_eq_of_alike hbody]
  | _, _, .eachLoop hcollection hbody _ => by
    rw [Stmt.unplaced, Stmt.unplaced, Expr.unplaced_eq_of_alike hcollection,
      Block.unplaced_eq_of_alike hbody]
  | _, _, .perform hcall _ => by
    rw [Stmt.unplaced, Stmt.unplaced, Expr.unplaced_eq_of_alike hcall]
termination_by structural a => a

theorem Block.unplaced_eq_of_alike : ∀ {a b : Block}, a.Alike R b → a.unplaced = b.unplaced
  | _, _, .mk hbody _ => by
    rw [Block.unplaced, Block.unplaced, Stmt.allUnplaced_eq_of_alike hbody]
termination_by structural a => a

theorem Alternative.unplaced_eq_of_alike :
    ∀ {a b : Alternative}, a.Alike R b → a.unplaced = b.unplaced
  | _, _, .nothing => rfl
  | _, _, .otherwise hbody => by
    rw [Alternative.unplaced, Alternative.unplaced, Block.unplaced_eq_of_alike hbody]
  | _, _, .elseIf htest hbody hrest _ => by
    rw [Alternative.unplaced, Alternative.unplaced, Expr.unplaced_eq_of_alike htest,
      Block.unplaced_eq_of_alike hbody, Alternative.unplaced_eq_of_alike hrest]
termination_by structural a => a

theorem Stmt.allUnplaced_eq_of_alike : ∀ {as bs : List Stmt},
    List.Forall₂ (Stmt.Alike R) as bs → Stmt.allUnplaced as = Stmt.allUnplaced bs
  | _, _, .nil => rfl
  | _, _, .cons hab has => by
    rw [Stmt.allUnplaced, Stmt.allUnplaced, Stmt.unplaced_eq_of_alike hab,
      Stmt.allUnplaced_eq_of_alike has]
termination_by structural a => a

end

end Syntax

/-! ## A tree and itself -/

/-- Each place corresponds to itself. -/
def Correspondence.same : Correspondence := ⟨Eq, Eq⟩

theorem Correspondence.same_spans (s : Span) : Correspondence.same.Spans s s := ⟨rfl, rfl⟩

namespace Syntax

open Correspondence

mutual

theorem TypeExpr.alike_self (t : TypeExpr) : t.Alike .same t := by
  cases t with
  | named name s => exact .named (same_spans s)
  | array element s => exact .array element.alike_self (same_spans s)
  | optional base s => exact .optional base.alike_self (same_spans s)
  | sum alternatives s => exact .sum (TypeExpr.allAlike_self alternatives) (same_spans s)
  | function params result s =>
    exact .function (TypeExpr.allAlike_self params) result.alike_self (same_spans s)
termination_by structural t

theorem TypeExpr.allAlike_self (ts : List TypeExpr) :
    List.Forall₂ (TypeExpr.Alike .same) ts ts := by
  cases ts with
  | nil => exact .nil
  | cons t ts => exact .cons t.alike_self (TypeExpr.allAlike_self ts)
termination_by structural ts

end

mutual

theorem Expr.alike_self (e : Expr) : e.Alike .same e := by
  cases e with
  | int n s => exact .int (same_spans s)
  | float x s => exact .float (same_spans s)
  | string text s => exact .string (same_spans s)
  | bool b s => exact .bool (same_spans s)
  | symbol name s => exact .symbol (same_spans s)
  | binary op left right s => exact .binary left.alike_self right.alike_self (same_spans s)
  | unary op operand s => exact .unary operand.alike_self (same_spans s)
  | conditional test yes no s =>
    exact .conditional test.alike_self yes.alike_self no.alike_self (same_spans s)
  | array elements s => exact .array (Expr.allAlike_self elements) (same_spans s)
  | emptyArray element s => exact .emptyArray element.alike_self (same_spans s)
  | absent base s => exact .absent base.alike_self (same_spans s)
  | subscript items index s => exact .subscript items.alike_self index.alike_self (same_spans s)
  | member object field chained s => exact .member object.alike_self (same_spans s)
  | call callee args s => exact .call callee.alike_self (Expr.allAlike_self args) (same_spans s)
termination_by structural e

theorem Expr.allAlike_self (es : List Expr) : List.Forall₂ (Expr.Alike .same) es es := by
  cases es with
  | nil => exact .nil
  | cons e es => exact .cons e.alike_self (Expr.allAlike_self es)
termination_by structural es

end

theorem Binding.allAlike_self (bs : List Binding) :
    List.Forall₂ (Binding.Alike .same) bs bs :=
  List.forall₂_same.mpr fun b _ => ⟨rfl, b.type.alike_self, same_spans b.span⟩

theorem TypeExpr.rel_alike_self (t : Option TypeExpr) :
    Option.Rel (TypeExpr.Alike .same) t t := by
  cases t with
  | none => exact .none
  | some t => exact .some t.alike_self

theorem Expr.rel_alike_self (e : Option Expr) : Option.Rel (Expr.Alike .same) e e := by
  cases e with
  | none => exact .none
  | some e => exact .some e.alike_self

mutual

theorem Stmt.alike_self (a : Stmt) : a.Alike .same a := by
  cases a with
  | declare x isConstant byReference value s => exact .declare value.alike_self (same_spans s)
  | struct x fields s => exact .struct (Binding.allAlike_self fields) (same_spans s)
  | function x params result body s =>
    exact .function (Binding.allAlike_self params) (TypeExpr.rel_alike_self result)
      body.alike_self (same_spans s)
  | assign target value byReference s =>
    exact .assign target.alike_self value.alike_self (same_spans s)
  | increment target s => exact .increment target.alike_self (same_spans s)
  | decrement target s => exact .decrement target.alike_self (same_spans s)
  | breakLoop s => exact .breakLoop (same_spans s)
  | giveBack value s => exact .giveBack (Expr.rel_alike_self value) (same_spans s)
  | branch test body rest s =>
    exact .branch test.alike_self body.alike_self rest.alike_self (same_spans s)
  | whileLoop test body s => exact .whileLoop test.alike_self body.alike_self (same_spans s)
  | repeatLoop count body s => exact .repeatLoop count.alike_self body.alike_self (same_spans s)
  | rangeLoop x low op high body s =>
    exact .rangeLoop low.alike_self high.alike_self body.alike_self (same_spans s)
  | eachLoop x collection body s =>
    exact .eachLoop collection.alike_self body.alike_self (same_spans s)
  | perform call s => exact .perform call.alike_self (same_spans s)
termination_by structural a

theorem Block.alike_self (b : Block) : b.Alike .same b := by
  cases b with
  | mk body s => exact .mk (Stmt.allAlike_self body) (same_spans s)
termination_by structural b

theorem Alternative.alike_self (a : Alternative) : a.Alike .same a := by
  cases a with
  | nothing => exact .nothing
  | otherwise body => exact .otherwise body.alike_self
  | elseIf test body rest s =>
    exact .elseIf test.alike_self body.alike_self rest.alike_self (same_spans s)
termination_by structural a

theorem Stmt.allAlike_self (ss : List Stmt) : List.Forall₂ (Stmt.Alike .same) ss ss := by
  cases ss with
  | nil => exact .nil
  | cons s ss => exact .cons s.alike_self (Stmt.allAlike_self ss)
termination_by structural ss

end

end Syntax

/-! ## Trees with the same places -/

theorem Correspondence.eq_of_spans {s t : Span} (h : Correspondence.same.Spans s t) : s = t :=
  congrArg₂ Span.mk h.start h.stop

theorem Token.eq_of_alike {t u : Token} (h : t.Alike .same u) : t = u := by
  obtain ⟨kind, value, s⟩ := t
  obtain ⟨kind', value', s'⟩ := u
  obtain ⟨rfl, rfl, hs, -⟩ := h
  exact congrArg _ (Correspondence.eq_of_spans hs)

theorem Token.alike_self (t : Token) : t.Alike .same t :=
  ⟨rfl, rfl, Correspondence.same_spans _, fun _ => ⟨rfl, rfl⟩⟩

theorem Cursor.eq_of_alike {c d : Cursor} (h : c.Alike .same d) : c = d := by
  obtain ⟨e, rest, value, s⟩ := c
  obtain ⟨e', rest', value', s'⟩ := d
  obtain ⟨hend, hrest, hvalue, hs⟩ := h
  obtain rfl : e = e' := hend
  obtain rfl : value = value' := hvalue
  obtain rfl : rest = rest' :=
    List.forall₂_eq_eq_eq ▸ hrest.imp fun _ _ => Token.eq_of_alike
  exact congrArg (fun s => Cursor.mk e rest ⟨value, s⟩) (Correspondence.eq_of_spans hs)

theorem Cursor.alike_self (c : Cursor) : c.Alike .same c :=
  ⟨rfl, List.forall₂_same.mpr fun t _ => t.alike_self, rfl, Correspondence.same_spans _⟩

namespace Syntax

open Correspondence

mutual

theorem TypeExpr.eq_of_alike : ∀ {a b : TypeExpr}, a.Alike .same b → a = b
  | _, _, .named h => by rw [eq_of_spans h]
  | _, _, .array helement h => by rw [eq_of_alike helement, eq_of_spans h]
  | _, _, .optional hbase h => by rw [eq_of_alike hbase, eq_of_spans h]
  | _, _, .sum halternatives h => by rw [all_eq_of_alike halternatives, eq_of_spans h]
  | _, _, .function hparams hresult h => by
    rw [all_eq_of_alike hparams, eq_of_alike hresult, eq_of_spans h]

theorem TypeExpr.all_eq_of_alike : ∀ {as bs : List TypeExpr},
    List.Forall₂ (TypeExpr.Alike .same) as bs → as = bs
  | _, _, .nil => rfl
  | _, _, .cons hab has => by rw [eq_of_alike hab, all_eq_of_alike has]

end

mutual

theorem Expr.eq_of_alike : ∀ {a b : Expr}, a.Alike .same b → a = b
  | _, _, .int h | _, _, .float h | _, _, .string h | _, _, .bool h | _, _, .symbol h => by
    rw [eq_of_spans h]
  | _, _, .binary hleft hright h => by
    rw [eq_of_alike hleft, eq_of_alike hright, eq_of_spans h]
  | _, _, .unary hoperand h => by rw [eq_of_alike hoperand, eq_of_spans h]
  | _, _, .conditional htest hyes hno h => by
    rw [eq_of_alike htest, eq_of_alike hyes, eq_of_alike hno, eq_of_spans h]
  | _, _, .array helements h => by rw [all_eq_of_alike helements, eq_of_spans h]
  | _, _, .emptyArray helement h => by rw [TypeExpr.eq_of_alike helement, eq_of_spans h]
  | _, _, .absent hbase h => by rw [TypeExpr.eq_of_alike hbase, eq_of_spans h]
  | _, _, .subscript hitems hindex h => by
    rw [eq_of_alike hitems, eq_of_alike hindex, eq_of_spans h]
  | _, _, .member hobject h => by rw [eq_of_alike hobject, eq_of_spans h]
  | _, _, .call hcallee hargs h => by
    rw [eq_of_alike hcallee, all_eq_of_alike hargs, eq_of_spans h]

theorem Expr.all_eq_of_alike : ∀ {as bs : List Expr},
    List.Forall₂ (Expr.Alike .same) as bs → as = bs
  | _, _, .nil => rfl
  | _, _, .cons hab has => by rw [eq_of_alike hab, all_eq_of_alike has]

end

theorem Binding.eq_of_alike {a b : Binding} (h : a.Alike .same b) : a = b := by
  obtain ⟨name, type, s⟩ := a
  obtain ⟨name', type', s'⟩ := b
  obtain ⟨rfl, htype, hs⟩ := h
  exact congrArg₂ (Binding.mk name) (TypeExpr.eq_of_alike htype) (eq_of_spans hs)

theorem Binding.all_eq_of_alike {as bs : List Binding}
    (h : List.Forall₂ (Binding.Alike .same) as bs) : as = bs :=
  List.forall₂_eq_eq_eq ▸ h.imp fun _ _ => Binding.eq_of_alike

theorem TypeExpr.eq_of_rel_alike {a b : Option TypeExpr}
    (h : Option.Rel (TypeExpr.Alike .same) a b) : a = b := by
  cases h with
  | none => rfl
  | some ht => rw [TypeExpr.eq_of_alike ht]

theorem Expr.eq_of_rel_alike {a b : Option Expr} (h : Option.Rel (Expr.Alike .same) a b) :
    a = b := by
  cases h with
  | none => rfl
  | some he => rw [Expr.eq_of_alike he]

mutual

theorem Stmt.eq_of_alike : ∀ {a b : Stmt}, a.Alike .same b → a = b
  | _, _, .breakLoop h => by rw [eq_of_spans h]
  | _, _, .declare hvalue h => by rw [Expr.eq_of_alike hvalue, eq_of_spans h]
  | _, _, .struct hfields h => by rw [Binding.all_eq_of_alike hfields, eq_of_spans h]
  | _, _, .function hparams hresult hbody h => by
    rw [Binding.all_eq_of_alike hparams, TypeExpr.eq_of_rel_alike hresult,
      Block.eq_of_alike hbody, eq_of_spans h]
  | _, _, .assign htarget hvalue h => by
    rw [Expr.eq_of_alike htarget, Expr.eq_of_alike hvalue, eq_of_spans h]
  | _, _, .increment htarget h => by rw [Expr.eq_of_alike htarget, eq_of_spans h]
  | _, _, .decrement htarget h => by rw [Expr.eq_of_alike htarget, eq_of_spans h]
  | _, _, .giveBack hvalue h => by rw [Expr.eq_of_rel_alike hvalue, eq_of_spans h]
  | _, _, .branch htest hbody hrest h => by
    rw [Expr.eq_of_alike htest, Block.eq_of_alike hbody, Alternative.eq_of_alike hrest,
      eq_of_spans h]
  | _, _, .whileLoop htest hbody h => by
    rw [Expr.eq_of_alike htest, Block.eq_of_alike hbody, eq_of_spans h]
  | _, _, .repeatLoop hcount hbody h => by
    rw [Expr.eq_of_alike hcount, Block.eq_of_alike hbody, eq_of_spans h]
  | _, _, .rangeLoop hlow hhigh hbody h => by
    rw [Expr.eq_of_alike hlow, Expr.eq_of_alike hhigh, Block.eq_of_alike hbody, eq_of_spans h]
  | _, _, .eachLoop hcollection hbody h => by
    rw [Expr.eq_of_alike hcollection, Block.eq_of_alike hbody, eq_of_spans h]
  | _, _, .perform hcall h => by rw [Expr.eq_of_alike hcall, eq_of_spans h]
termination_by structural a => a

theorem Block.eq_of_alike : ∀ {a b : Block}, a.Alike .same b → a = b
  | _, _, .mk hbody h => by rw [Stmt.all_eq_of_alike hbody, eq_of_spans h]
termination_by structural a => a

theorem Alternative.eq_of_alike : ∀ {a b : Alternative}, a.Alike .same b → a = b
  | _, _, .nothing => rfl
  | _, _, .otherwise hbody => by rw [Block.eq_of_alike hbody]
  | _, _, .elseIf htest hbody hrest h => by
    rw [Expr.eq_of_alike htest, Block.eq_of_alike hbody, Alternative.eq_of_alike hrest,
      eq_of_spans h]
termination_by structural a => a

theorem Stmt.all_eq_of_alike : ∀ {as bs : List Stmt},
    List.Forall₂ (Stmt.Alike .same) as bs → as = bs
  | _, _, .nil => rfl
  | _, _, .cons hab has => by rw [Stmt.eq_of_alike hab, Stmt.all_eq_of_alike has]
termination_by structural a => a

end

end Syntax

end Quill
