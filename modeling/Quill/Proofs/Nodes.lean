import Mathlib
import Quill.Simplify.Program

/-!
# Every node of a typed program

`Expr.Everywhere P` says that `P` holds of each node of an expression, and `Stmt.Everywhere P Q`
that `P` holds of each node of each expression of a statement and `Q` of the statement and of all
statements inside it, bodies of functions included. What a program must have everywhere, or must
have nowhere, is said with these two.

Results:
* `Expr.induction`, `Expr.induction_parts`, `Stmt.induction`: induction on the tree, with the
  hypothesis for each member of a list of parts.
* `Expr.simplifyAll_eq_map`, `Stmt.simplifyAll_eq_flatMap`: simplifying a list is simplifying its
  members.
* `Expr.eq_bool_of_isBool` and its like: which expression it is that a test of simplification finds.
-/

namespace Quill.Typed

/-! ## Expressions -/

namespace Expr

/-- The expressions that an expression is put together from. -/
def parts : Expr → List Expr
  | .literal _ | .emptyArray _ | .absent _ | .variable _ | .function _ => []
  | .conditional test yes no _ => [test, yes, no]
  | .binary _ left right _ => [left, right]
  | .unary _ operand _ => [operand]
  | .array elements _ => elements
  | .subscript items index _ => [items, index]
  | .member object _ _ _ => [object]
  | .call callee args _ => callee :: args
  | .construct _ args => args

/-- The property holds of every node of the expression. -/
inductive Everywhere (P : Expr → Prop) : Expr → Prop
  | node {e : Expr} (here : P e) (inside : ∀ c ∈ e.parts, Everywhere P c) : Everywhere P e

namespace Everywhere

variable {P Q : Expr → Prop} {e : Expr}

theorem here (h : Everywhere P e) : P e := by
  cases h with
  | node here _ => exact here

theorem inside (h : Everywhere P e) : ∀ c ∈ e.parts, Everywhere P c := by
  cases h with
  | node _ inside => exact inside

/-- The property node by node. The parts are a list, so that `simp` comes to an end. -/
theorem iff_forall : Everywhere P e ↔ P e ∧ e.parts.Forall (Everywhere P) := by
  rw [List.forall_iff_forall_mem]
  exact ⟨fun h => ⟨h.here, h.inside⟩, fun h => .node h.1 h.2⟩

theorem imp (hPQ : ∀ e, P e → Q e) (h : Everywhere P e) : Everywhere Q e := by
  induction h with
  | node here _ ih => exact .node (hPQ _ here) ih

theorem and (hP : Everywhere P e) (hQ : Everywhere Q e) : Everywhere (fun e => P e ∧ Q e) e := by
  induction hP with
  | node here _ ih => exact .node ⟨here, hQ.here⟩ fun c hc => ih c hc (hQ.inside c hc)

end Everywhere

/-- The expression is the other one, or a part of it, however deep. -/
inductive Inside (c : Expr) : Expr → Prop
  | here : Inside c c
  | deeper {d e : Expr} (hd : d ∈ e.parts) (h : Inside c d) : Inside c e

theorem Everywhere.of_inside {P : Expr → Prop} {c e : Expr} (he : e.Everywhere P)
    (hc : c.Inside e) : c.Everywhere P := by
  induction hc with
  | here => exact he
  | deeper hd _ ih => exact ih (he.inside _ hd)

/-- Induction on an expression. Where it has a list of parts, the hypothesis holds of each. -/
@[elab_as_elim]
theorem induction {P : Expr → Prop} (literal : ∀ l, P (.literal l))
    (conditional : ∀ test yes no t, P test → P yes → P no → P (.conditional test yes no t))
    (binary : ∀ op left right t, P left → P right → P (.binary op left right t))
    (unary : ∀ op operand t, P operand → P (.unary op operand t))
    (array : ∀ elements t, (∀ e ∈ elements, P e) → P (.array elements t))
    (emptyArray : ∀ t, P (.emptyArray t))
    (absent : ∀ t, P (.absent t))
    (subscript : ∀ items index t, P items → P index → P (.subscript items index t))
    (member : ∀ object field chained t, P object → P (.member object field chained t))
    (call : ∀ callee args t, P callee → (∀ e ∈ args, P e) → P (.call callee args t))
    (construct : ∀ id args, (∀ e ∈ args, P e) → P (.construct id args))
    (var : ∀ v, P (.variable v))
    (function : ∀ f, P (.function f)) (e : Expr) : P e :=
  @Expr.rec P (fun es => ∀ e ∈ es, P e) literal conditional binary unary array emptyArray absent
    subscript member call construct var function nofun
    (fun _ _ hd tl => List.forall_mem_cons.mpr ⟨hd, tl⟩) e

/-- Induction on an expression, with the hypothesis for each of its parts. -/
@[elab_as_elim]
theorem induction_parts {P : Expr → Prop} (step : ∀ e, (∀ c ∈ e.parts, P c) → P e) (e : Expr) :
    P e := by
  have pair : ∀ {a b : Expr}, P a → P b → ∀ c ∈ [a, b], P c := fun ha hb =>
    List.forall_mem_cons.mpr ⟨ha, List.forall_mem_singleton.mpr hb⟩
  induction e using Expr.induction with
  | literal | emptyArray | absent | var | function => exact step _ (List.forall_mem_nil P)
  | conditional _ _ _ _ htest hyes hno =>
    exact step _ (List.forall_mem_cons.mpr ⟨htest, pair hyes hno⟩)
  | binary _ _ _ _ hleft hright => exact step _ (pair hleft hright)
  | subscript _ _ _ hitems hindex => exact step _ (pair hitems hindex)
  | unary _ _ _ ih | member _ _ _ _ ih => exact step _ (List.forall_mem_singleton.mpr ih)
  | array _ _ ih | construct _ _ ih => exact step _ ih
  | call _ _ _ hcallee hargs => exact step _ (List.forall_mem_cons.mpr ⟨hcallee, hargs⟩)

theorem simplifyAll_eq_map : ∀ es : List Expr, simplifyAll es = es.map simplify
  | [] => rfl
  | _ :: es => congrArg _ (simplifyAll_eq_map es)

end Expr

/-! ## Statements -/

namespace Stmt

/-- The expressions of a statement, those of the statements inside it left out. -/
def exprs : Stmt → List Expr
  | .struct _ | .function _ _ _ | .breakLoop | .giveBack none => []
  | .declare _ _ e | .increment e | .decrement e | .giveBack (some e) | .branch e _ _
  | .shortBranch e _ | .whileLoop e _ | .repeatLoop e _ | .eachLoop _ e _ | .perform e => [e]
  | .assign target source _ => [target, source]
  | .rangeLoop _ low _ high _ => [low, high]

/-- The statements directly inside a statement. -/
def inner : Stmt → List Stmt
  | .declare _ _ _ | .struct _ | .assign _ _ _ | .increment _ | .decrement _ | .breakLoop
  | .giveBack _ | .perform _ => []
  | .branch _ yes no => yes ++ no
  | .function _ _ body | .shortBranch _ body | .whileLoop _ body | .repeatLoop _ body
  | .rangeLoop _ _ _ _ body | .eachLoop _ _ body => body

/-- The one property holds of every node of every expression of the statement, the other of every
statement of it. -/
inductive Everywhere (P : Expr → Prop) (Q : Stmt → Prop) : Stmt → Prop
  | node {s : Stmt} (here : Q s) (exprs : ∀ e ∈ s.exprs, e.Everywhere P)
      (inside : ∀ c ∈ s.inner, Everywhere P Q c) : Everywhere P Q s

namespace Everywhere

variable {P P' : Expr → Prop} {Q Q' : Stmt → Prop} {s : Stmt}

theorem here (h : Everywhere P Q s) : Q s := by
  cases h with
  | node here _ _ => exact here

theorem exprs (h : Everywhere P Q s) : ∀ e ∈ s.exprs, e.Everywhere P := by
  cases h with
  | node _ exprs _ => exact exprs

theorem inside (h : Everywhere P Q s) : ∀ c ∈ s.inner, Everywhere P Q c := by
  cases h with
  | node _ _ inside => exact inside

/-- The properties statement by statement. -/
theorem iff_forall : Everywhere P Q s ↔
    Q s ∧ s.exprs.Forall (Expr.Everywhere P) ∧ s.inner.Forall (Everywhere P Q) := by
  rw [List.forall_iff_forall_mem, List.forall_iff_forall_mem]
  exact ⟨fun h => ⟨h.here, h.exprs, h.inside⟩, fun h => .node h.1 h.2.1 h.2.2⟩

theorem and (h : Everywhere P Q s) (h' : Everywhere P' Q' s) :
    Everywhere (fun e => P e ∧ P' e) (fun s => Q s ∧ Q' s) s := by
  induction h with
  | node here exprs _ ih =>
    exact .node ⟨here, h'.here⟩ (fun e he => (exprs e he).and (h'.exprs e he))
      fun c hc => ih c hc (h'.inside c hc)

theorem imp (hP : ∀ e, P e → P' e) (hQ : ∀ s, Q s → Q' s) (h : Everywhere P Q s) :
    Everywhere P' Q' s := by
  induction h with
  | node here exprs _ ih => exact .node (hQ _ here) (fun e he => (exprs e he).imp hP) ih

end Everywhere

/-- The statement is the other one, or stands somewhere inside it. -/
inductive Inside (s : Stmt) : Stmt → Prop
  | here : Inside s s
  | deeper {c d : Stmt} (hc : c ∈ d.inner) (h : Inside s c) : Inside s d

theorem Everywhere.of_inside {P : Expr → Prop} {Q : Stmt → Prop} {s d : Stmt}
    (hd : d.Everywhere P Q) (hs : s.Inside d) : s.Everywhere P Q := by
  induction hs with
  | here => exact hd
  | deeper hc _ ih => exact ih (hd.inside _ hc)

/-- Induction on a statement. Where it has a list of statements, the hypothesis holds of each. -/
@[elab_as_elim]
theorem induction {P : Stmt → Prop} (step : ∀ s, (∀ c ∈ s.inner, P c) → P s) (s : Stmt) : P s :=
  @Stmt.rec P (fun ss => ∀ s ∈ ss, P s)
    (fun _ _ _ => step _ nofun) (fun _ => step _ nofun) (fun _ _ _ ih => step _ ih)
    (fun _ _ _ => step _ nofun) (fun _ => step _ nofun) (fun _ => step _ nofun) (step _ nofun)
    (fun _ => step _ nofun)
    (fun _ _ _ hyes hno => step _ fun c hc => (List.mem_append.mp hc).elim (hyes c) (hno c))
    (fun _ _ ih => step _ ih) (fun _ _ ih => step _ ih) (fun _ _ ih => step _ ih)
    (fun _ _ _ _ _ ih => step _ ih) (fun _ _ _ ih => step _ ih) (fun _ => step _ nofun) nofun
    (fun _ _ hd tl => List.forall_mem_cons.mpr ⟨hd, tl⟩) s

theorem simplifyAll_eq_flatMap : ∀ ss : List Stmt, simplifyAll ss = ss.flatMap simplify
  | [] => rfl
  | s :: ss => by rw [simplifyAll, List.flatMap_cons, simplifyAll_eq_flatMap ss]

end Stmt

/-! ## What the tests of simplification find -/

namespace Expr

theorem eq_literal_of_literal? {e : Expr} {a : Literal} (h : e.literal? = some a) :
    e = .literal a := by
  cases e <;> cases h
  rfl

theorem eq_bool_of_isBool {e : Expr} {b : Bool} (h : e.isBool b = true) : e = .bool b := by
  unfold isBool at h
  split at h
  · simp only [decide_eq_true_eq] at h
    rw [h]
  · exact absurd h Bool.false_ne_true

theorem eq_absent_of_isAbsent {e : Expr} (h : e.isAbsent = true) : ∃ t, e = .absent t := by
  cases e <;> cases h
  exact ⟨_, rfl⟩

theorem eq_emptyArray_of_isEmptyArray {e : Expr} (h : e.isEmptyArray = true) :
    ∃ t, e = .emptyArray t := by
  cases e <;> cases h
  exact ⟨_, rfl⟩

end Expr

namespace Stmt

theorem eq_variable_of_isSameVariable {e f : Expr} (h : isSameVariable e f = true) :
    ∃ v w, e = .variable v ∧ f = .variable w ∧ v.id = w.id := by
  unfold isSameVariable at h
  split at h
  · exact ⟨_, _, rfl, rfl, of_decide_eq_true h⟩
  · exact absurd h Bool.false_ne_true

theorem eq_int_of_isNoRound {e : Expr} (h : isNoRound e = true) : ∃ n, e = .int n ∧ n ≤ 0 := by
  unfold isNoRound at h
  split at h
  · exact ⟨_, rfl, of_decide_eq_true h⟩
  · exact absurd h Bool.false_ne_true

theorem eq_int_of_isEmptyRange {low high : Expr} {op : RangeOp}
    (h : isEmptyRange low op high = true) :
    ∃ a b, low = .int a ∧ high = .int b ∧ (b < a ∨ op = .exclusive ∧ b ≤ a) := by
  unfold isEmptyRange at h
  split at h
  · cases op with
    | exclusive => exact ⟨_, _, rfl, rfl, .inr ⟨rfl, of_decide_eq_true h⟩⟩
    | inclusive => exact ⟨_, _, rfl, rfl, .inl (of_decide_eq_true h)⟩
  · exact absurd h Bool.false_ne_true

end Stmt

/-- The one property holds of every node of every expression of the program, the other of every
statement of it. -/
def Program.Everywhere (P : Expr → Prop) (Q : Stmt → Prop) (p : Program) : Prop :=
  ∀ s ∈ p.statements, s.Everywhere P Q

end Quill.Typed
