import Quill.Proofs.Identity
import Quill.Scope

/-!
# Other identities

Identities tell variables and functions apart and mean nothing else. A `Renumbering` gives each of
them another one, different ones for different ones; a program can be rewritten with it throughout.
Types and literals are left alone, so that simplification goes the same way: it compares identities
only to see whether a variable is assigned to itself.

Results:
* `Expr.type_renumber`: the types stay.
* **`Program.simplify_renumber`**: simplification and renumbering commute.
* `Stmt.renumberAll_eq_self`: a renumbering that moves nothing changes nothing.
-/

namespace Quill

/-- Other identities for variables and functions, different ones for different ones. -/
structure Renumbering where
  map : Nat → Nat
  injective : Function.Injective map

namespace Renumbering

/-- Keeps the identities below `n` and moves the others up by `k`. -/
def shift (n k : Nat) : Renumbering where
  map i := if i < n then i else i + k
  injective := by
    intro i j h
    dsimp only at h
    split_ifs at h <;> omega

variable {n k i : Nat}

theorem shift_of_lt (h : i < n) : (shift n k).map i = i := if_pos h

theorem shift_of_le (h : n ≤ i) : (shift n k).map i = i + k := if_neg (Nat.not_lt.mpr h)

theorem shift_zero (n i : Nat) : (shift n 0).map i = i := by
  by_cases h : i < n
  · exact shift_of_lt h
  · exact shift_of_le (Nat.not_lt.mp h)

end Renumbering

variable (ρ : Renumbering)

/-! ## Entities -/

/-- The variable with another identity. -/
def Variable.renumber (v : Variable) : Variable := { v with id := ρ.map v.id }

/-- The function with another identity. -/
def Function.renumber (f : Function) : Function := { f with id := ρ.map f.id }

/-- The entity with another identity; a type has none. -/
def Entity.renumber : Entity → Entity
  | .variable v => .variable (v.renumber ρ)
  | .function f => .function (f.renumber ρ)
  | .type t => .type t

/-- What the scope is the body of, with another identity. -/
def ScopeKind.renumber : ScopeKind → ScopeKind
  | .block => .block
  | .loop => .loop
  | .function f => .function (f.renumber ρ)

/-! ## Programs -/

namespace Typed

mutual

/-- The expression with other identities. -/
def Expr.renumber : Expr → Expr
  | .literal l => .literal l
  | .conditional test yes no t => .conditional test.renumber yes.renumber no.renumber t
  | .binary op left right t => .binary op left.renumber right.renumber t
  | .unary op operand t => .unary op operand.renumber t
  | .array elements t => .array (Expr.renumberAll elements) t
  | .emptyArray t => .emptyArray t
  | .absent t => .absent t
  | .subscript items index t => .subscript items.renumber index.renumber t
  | .member object field chained t => .member object.renumber field chained t
  | .call callee args t => .call callee.renumber (Expr.renumberAll args) t
  | .construct id args => .construct id (Expr.renumberAll args)
  | .variable v => .variable (v.renumber ρ)
  | .function f => .function (f.renumber ρ)

/-- Several expressions with other identities. -/
def Expr.renumberAll : List Expr → List Expr
  | [] => []
  | e :: es => e.renumber :: Expr.renumberAll es

end

mutual

/-- The statement with other identities. -/
def Stmt.renumber : Stmt → Stmt
  | .declare v byReference value => .declare (v.renumber ρ) byReference (value.renumber ρ)
  | .struct id => .struct id
  | .function f params body =>
    .function (f.renumber ρ) (params.map (Variable.renumber ρ)) (Stmt.renumberAll body)
  | .assign target source byReference =>
    .assign (target.renumber ρ) (source.renumber ρ) byReference
  | .increment target => .increment (target.renumber ρ)
  | .decrement target => .decrement (target.renumber ρ)
  | .breakLoop => .breakLoop
  | .giveBack value => .giveBack (value.map (Expr.renumber ρ))
  | .branch test yes no => .branch (test.renumber ρ) (Stmt.renumberAll yes) (Stmt.renumberAll no)
  | .shortBranch test yes => .shortBranch (test.renumber ρ) (Stmt.renumberAll yes)
  | .whileLoop test body => .whileLoop (test.renumber ρ) (Stmt.renumberAll body)
  | .repeatLoop count body => .repeatLoop (count.renumber ρ) (Stmt.renumberAll body)
  | .rangeLoop iterator low op high body =>
    .rangeLoop (iterator.renumber ρ) (low.renumber ρ) op (high.renumber ρ) (Stmt.renumberAll body)
  | .eachLoop iterator collection body =>
    .eachLoop (iterator.renumber ρ) (collection.renumber ρ) (Stmt.renumberAll body)
  | .perform call => .perform (call.renumber ρ)

/-- Several statements with other identities. -/
def Stmt.renumberAll : List Stmt → List Stmt
  | [] => []
  | s :: ss => s.renumber :: Stmt.renumberAll ss

end

/-- The program with other identities; structs have numbers of their own. -/
def Program.renumber (p : Program) : Program := ⟨Stmt.renumberAll ρ p.statements, p.types⟩

namespace Expr

theorem renumberAll_eq_map (es : List Expr) : renumberAll ρ es = es.map (renumber ρ) := by
  induction es with
  | nil => rfl
  | cons e es ih => rw [renumberAll, List.map_cons, ih]

@[simp] theorem type_renumber (e : Expr) : (e.renumber ρ).type = e.type := by
  cases e <;> rfl

end Expr

theorem Stmt.renumberAll_append (ss rr : List Stmt) :
    renumberAll ρ (ss ++ rr) = renumberAll ρ ss ++ renumberAll ρ rr := by
  induction ss with
  | nil => rfl
  | cons s ss ih => rw [List.cons_append, renumberAll, ih, renumberAll, List.cons_append]

/-! ## Simplification -/

namespace Expr

/-! What simplification asks of an operand does not depend on identities. -/

@[simp] theorem literal?_renumber (e : Expr) : (e.renumber ρ).literal? = e.literal? := by
  cases e <;> rfl

@[simp] theorem isZero_renumber (e : Expr) : (e.renumber ρ).isZero = e.isZero := by
  cases e <;> rfl

@[simp] theorem isOne_renumber (e : Expr) : (e.renumber ρ).isOne = e.isOne := by
  cases e <;> rfl

@[simp] theorem isBool_renumber (b : Bool) (e : Expr) : (e.renumber ρ).isBool b = e.isBool b := by
  cases e <;> rfl

@[simp] theorem isAbsent_renumber (e : Expr) : (e.renumber ρ).isAbsent = e.isAbsent := by
  cases e <;> rfl

@[simp] theorem isEmptyArray_renumber (e : Expr) :
    (e.renumber ρ).isEmptyArray = e.isEmptyArray := by
  cases e <;> rfl

theorem replacement?_renumber (op : BinaryOp) (l r : Expr) :
    replacement? op (l.renumber ρ) (r.renumber ρ) = replacement? op l r := by
  simp only [replacement?, isZero_renumber, isOne_renumber, isBool_renumber, isAbsent_renumber]

theorem expr_renumber (w : Replacement) (l r : Expr) (t : Ty) :
    w.expr (l.renumber ρ) (r.renumber ρ) t = (w.expr l r t).renumber ρ := by
  cases w with
  | zero =>
    obtain ⟨c, hc⟩ := zeroOf_eq_literal t
    simp only [Replacement.expr, hc, renumber]
  | one =>
    obtain ⟨c, hc⟩ := oneOf_eq_literal t
    simp only [Replacement.expr, hc, renumber]
  | _ => rfl

theorem simplifyBinary_renumber (op : BinaryOp) (l r : Expr) (t : Ty) :
    simplifyBinary op (l.renumber ρ) (r.renumber ρ) t = (simplifyBinary op l r t).renumber ρ := by
  rcases both_literals_or l r with ⟨a, b, rfl, rfl⟩ | hlit
  · simp only [renumber, simplifyBinary_literals]
    cases Literal.foldBinary? op a b <;> rfl
  · have hlit' : (l.renumber ρ).literal? = none ∨ (r.renumber ρ).literal? = none := by
      rwa [literal?_renumber, literal?_renumber]
    rw [simplifyBinary_of_literal?_eq_none hlit, simplifyBinary_of_literal?_eq_none hlit',
      replacement?_renumber]
    cases replacement? op l r with
    | none => rfl
    | some w => exact expr_renumber ρ w l r t

theorem simplifyUnary_renumber (op : UnaryOp) (e : Expr) (t : Ty) :
    simplifyUnary op (e.renumber ρ) t = (simplifyUnary op e t).renumber ρ := by
  have hfold : foldUnary? op (e.renumber ρ) = foldUnary? op e := by
    unfold foldUnary?
    rw [literal?_renumber, isEmptyArray_renumber]
  unfold simplifyUnary
  rw [hfold]
  cases foldUnary? op e <;> rfl

theorem simplifyConditional_renumber (test yes no : Expr) (t : Ty) :
    simplifyConditional (test.renumber ρ) (yes.renumber ρ) (no.renumber ρ) t =
      (simplifyConditional test yes no t).renumber ρ := by
  unfold simplifyConditional
  rw [isBool_renumber, isBool_renumber]
  split_ifs <;> rfl

theorem simplify_renumber (e : Expr) : (e.renumber ρ).simplify = e.simplify.renumber ρ := by
  have hall : ∀ es : List Expr, (∀ e ∈ es, (e.renumber ρ).simplify = e.simplify.renumber ρ) →
      simplifyAll (renumberAll ρ es) = renumberAll ρ (simplifyAll es) := by
    intro es hes
    rw [simplifyAll_eq_map, simplifyAll_eq_map, renumberAll_eq_map, renumberAll_eq_map,
      List.map_map, List.map_map]
    exact List.map_congr_left hes
  induction e using Expr.induction with
  | conditional test yes no t htest hyes hno =>
    rw [renumber, simplify, htest, hyes, hno, simplifyConditional_renumber, simplify]
  | binary op l r t hl hr => rw [renumber, simplify, hl, hr, simplifyBinary_renumber, simplify]
  | unary op e t he => rw [renumber, simplify, he, simplifyUnary_renumber, simplify]
  | array es t hes => rw [renumber, simplify, hall es hes, simplify, renumber]
  | subscript items index t hitems hindex =>
    rw [renumber, simplify, hitems, hindex, simplify, renumber]
  | member object field chained t hobject => rw [renumber, simplify, hobject, simplify, renumber]
  | call callee args t hcallee hargs =>
    rw [renumber, simplify, hcallee, hall args hargs, simplify, renumber]
  | construct id args hargs => rw [renumber, simplify, hall args hargs, simplify, renumber]
  | _ => rfl

end Expr

namespace Stmt

/-- The one place where identities are compared. -/
theorem isSameVariable_renumber (e f : Expr) :
    isSameVariable (e.renumber ρ) (f.renumber ρ) = isSameVariable e f := by
  cases e with
  | «variable» v =>
    cases f with
    | «variable» w => exact decide_eq_decide.mpr ρ.injective.eq_iff
    | _ => rfl
  | _ => rfl

theorem isNoRound_renumber (e : Expr) : isNoRound (e.renumber ρ) = isNoRound e := by
  cases e <;> rfl

theorem isEmptyRange_renumber (low : Expr) (op : RangeOp) (high : Expr) :
    isEmptyRange (low.renumber ρ) op (high.renumber ρ) = isEmptyRange low op high := by
  cases low with
  | literal a => cases a <;> cases high <;> rfl
  | _ => rfl

mutual

theorem simplify_renumber (s : Stmt) : (s.renumber ρ).simplify = renumberAll ρ s.simplify := by
  cases s with
  | function f params body =>
    simp only [renumber, simplify, simplifyAll_renumber body, renumberAll]
  | giveBack value =>
    cases value with
    | none => rfl
    | some e => simp only [renumber, simplify, renumberAll, Option.map_some, Expr.simplify_renumber]
  | assign target source byReference =>
    simp only [renumber, simplify, Expr.simplify_renumber, isSameVariable_renumber]
    split_ifs <;> rfl
  | branch test yes no =>
    simp only [renumber, simplify, Expr.simplify_renumber, Expr.isBool_renumber,
      simplifyAll_renumber yes, simplifyAll_renumber no]
    split_ifs <;> rfl
  | shortBranch test yes =>
    simp only [renumber, simplify, Expr.simplify_renumber, Expr.isBool_renumber,
      simplifyAll_renumber yes]
    split_ifs <;> rfl
  | whileLoop test body =>
    simp only [renumber, simplify, Expr.simplify_renumber, Expr.isBool_renumber,
      simplifyAll_renumber body]
    split_ifs <;> rfl
  | repeatLoop count body =>
    simp only [renumber, simplify, Expr.simplify_renumber, isNoRound_renumber,
      simplifyAll_renumber body]
    split_ifs <;> rfl
  | rangeLoop iterator low op high body =>
    simp only [renumber, simplify, Expr.simplify_renumber, isEmptyRange_renumber,
      simplifyAll_renumber body]
    split_ifs <;> rfl
  | eachLoop iterator collection body =>
    simp only [renumber, simplify, Expr.simplify_renumber, Expr.isEmptyArray_renumber,
      simplifyAll_renumber body]
    split_ifs <;> rfl
  | _ => simp only [renumber, simplify, Expr.simplify_renumber, renumberAll]
termination_by structural s

theorem simplifyAll_renumber (ss : List Stmt) :
    simplifyAll (renumberAll ρ ss) = renumberAll ρ (simplifyAll ss) := by
  cases ss with
  | nil => rfl
  | cons s ss =>
    rw [renumberAll, simplifyAll, simplify_renumber s, simplifyAll_renumber ss, simplifyAll,
      renumberAll_append]
termination_by structural ss

end

end Stmt

/-- **Simplification does not depend on identities.** -/
theorem Program.simplify_renumber (p : Program) :
    (p.renumber ρ).simplify = p.simplify.renumber ρ := by
  unfold Program.simplify Program.renumber
  rw [Stmt.simplifyAll_renumber]

end Typed

/-! ## Identities that stay -/

section

variable {ρ}

theorem Variable.renumber_eq_self (h : ∀ i, ρ.map i = i) (v : Variable) : v.renumber ρ = v := by
  rw [Variable.renumber, h]

theorem Function.renumber_eq_self (h : ∀ i, ρ.map i = i) (f : Function) : f.renumber ρ = f := by
  rw [Function.renumber, h]

theorem Entity.renumber_eq_self (h : ∀ i, ρ.map i = i) (x : Entity) : x.renumber ρ = x := by
  cases x with
  | «variable» v => rw [renumber, v.renumber_eq_self h]
  | function f => rw [renumber, f.renumber_eq_self h]
  | type t => rfl

namespace Typed

theorem Expr.renumber_eq_self (h : ∀ i, ρ.map i = i) (e : Expr) : e.renumber ρ = e := by
  have hall : ∀ es : List Expr, (∀ e ∈ es, e.renumber ρ = e) → renumberAll ρ es = es := by
    intro es hes
    rw [renumberAll_eq_map]
    exact (List.map_congr_left hes).trans (List.map_id es)
  induction e using Expr.induction with
  | conditional test yes no t htest hyes hno => rw [renumber, htest, hyes, hno]
  | binary op l r t hl hr => rw [renumber, hl, hr]
  | unary op e t he => rw [renumber, he]
  | array es t hes => rw [renumber, hall es hes]
  | subscript items index t hitems hindex => rw [renumber, hitems, hindex]
  | member object field chained t hobject => rw [renumber, hobject]
  | call callee args t hcallee hargs => rw [renumber, hcallee, hall args hargs]
  | construct id args hargs => rw [renumber, hall args hargs]
  | var v => rw [renumber, v.renumber_eq_self h]
  | function f => rw [renumber, f.renumber_eq_self h]
  | _ => rfl

mutual

theorem Stmt.renumber_eq_self (h : ∀ i, ρ.map i = i) (s : Stmt) : s.renumber ρ = s := by
  cases s with
  | function f params body =>
    have hparams : params.map (Variable.renumber ρ) = params :=
      (List.map_congr_left fun v _ => v.renumber_eq_self h).trans (List.map_id params)
    rw [renumber, f.renumber_eq_self h, hparams, renumberAll_eq_self h body]
  | giveBack value => cases value <;> simp only [renumber, Option.map, Expr.renumber_eq_self h]
  | branch test yes no =>
    rw [renumber, test.renumber_eq_self h, renumberAll_eq_self h yes, renumberAll_eq_self h no]
  | shortBranch test body | whileLoop test body | repeatLoop test body =>
    rw [renumber, test.renumber_eq_self h, renumberAll_eq_self h body]
  | rangeLoop v low op high body =>
    rw [renumber, v.renumber_eq_self h, low.renumber_eq_self h, high.renumber_eq_self h,
      renumberAll_eq_self h body]
  | eachLoop v collection body =>
    rw [renumber, v.renumber_eq_self h, collection.renumber_eq_self h, renumberAll_eq_self h body]
  | _ => simp only [renumber, Expr.renumber_eq_self h, Variable.renumber_eq_self h]
termination_by structural s

theorem Stmt.renumberAll_eq_self (h : ∀ i, ρ.map i = i) (ss : List Stmt) :
    Stmt.renumberAll ρ ss = ss := by
  cases ss with
  | nil => rfl
  | cons s ss => rw [renumberAll, renumber_eq_self h s, renumberAll_eq_self h ss]
termination_by structural ss

end

end Typed

end

end Quill
