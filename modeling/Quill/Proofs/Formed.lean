import Quill.Proofs.Accepted
import Quill.Proofs.Naming
import Quill.Proofs.Parsed

/-!
# Lists that are never empty

A tree may hold a sum without alternatives or an array literal without elements; no text writes one.
`Formed` says of a tree that it has neither. Checking relies on it: the element type of an array
literal is the sum of the types of its elements, and a sum without alternatives is no type.

Results:
* `TypeWrites.formed`, `ExprWrites.formed`, `StmtWrites.formed`: what is written is formed.
* **`formed_of_parse`**: every statement of a program that is read is formed.
-/

namespace Quill

namespace Syntax

/-! ## Formed trees -/

/-- Every sum in the annotation has alternatives. -/
inductive TypeExpr.Formed : TypeExpr → Prop
  | named {name : String} {span : Span} : Formed (.named name span)
  | array {t : TypeExpr} {span : Span} (h : Formed t) : Formed (.array t span)
  | optional {t : TypeExpr} {span : Span} (h : Formed t) : Formed (.optional t span)
  | sum {ts : List TypeExpr} {span : Span} (hne : ts ≠ []) (h : ∀ t ∈ ts, Formed t) :
      Formed (.sum ts span)
  | function {ts : List TypeExpr} {r : TypeExpr} {span : Span} (hparams : ∀ t ∈ ts, Formed t)
      (hresult : Formed r) : Formed (.function ts r span)

/-- Every array literal in the expression has elements, and every annotation is formed. -/
inductive Expr.Formed : Expr → Prop
  | int {n : Int64} {span : Span} : Formed (.int n span)
  | float {x : Float} {span : Span} : Formed (.float x span)
  | string {s : String} {span : Span} : Formed (.string s span)
  | bool {b : Bool} {span : Span} : Formed (.bool b span)
  | symbol {name : String} {span : Span} : Formed (.symbol name span)
  | binary {op : BinaryOp} {l r : Expr} {span : Span} (hl : Formed l) (hr : Formed r) :
      Formed (.binary op l r span)
  | unary {op : UnaryOp} {e : Expr} {span : Span} (h : Formed e) : Formed (.unary op e span)
  | conditional {test yes no : Expr} {span : Span} (htest : Formed test) (hyes : Formed yes)
      (hno : Formed no) : Formed (.conditional test yes no span)
  | array {es : List Expr} {span : Span} (hne : es ≠ []) (h : ∀ e ∈ es, Formed e) :
      Formed (.array es span)
  | emptyArray {t : TypeExpr} {span : Span} (h : t.Formed) : Formed (.emptyArray t span)
  | absent {t : TypeExpr} {span : Span} (h : t.Formed) : Formed (.absent t span)
  | subscript {items index : Expr} {span : Span} (hitems : Formed items) (hindex : Formed index) :
      Formed (.subscript items index span)
  | member {object : Expr} {field : String} {chained : Bool} {span : Span} (h : Formed object) :
      Formed (.member object field chained span)
  | call {callee : Expr} {args : List Expr} {span : Span} (hcallee : Formed callee)
      (hargs : ∀ e ∈ args, Formed e) : Formed (.call callee args span)

namespace Stmt

/-- The annotations of a statement, those of its expressions and of the statements inside it left
out. -/
def annotations : Stmt → List TypeExpr
  | .struct _ fields _ => fields.map (·.type)
  | .function _ params result _ _ => params.map (·.type) ++ result.toList
  | _ => []

/-- The expressions and annotations of the statement itself are formed. -/
def FormedHere (a : Stmt) : Prop := (∀ e ∈ a.exprs, e.Formed) ∧ ∀ t ∈ a.annotations, t.Formed

/-- All expressions and annotations of the statement and of those inside it are formed. -/
abbrev Formed (a : Stmt) : Prop := a.Everywhere FormedHere

variable {a : Stmt}

theorem Formed.exprs (h : a.Formed) : ∀ e ∈ a.exprs, e.Formed := by
  cases h with
  | node here _ => exact here.1

theorem Formed.annotations (h : a.Formed) : ∀ t ∈ a.annotations, t.Formed := by
  cases h with
  | node here _ => exact here.2

theorem Formed.inside (h : a.Formed) : ∀ body ∈ a.bodies, ∀ b ∈ body, b.Formed := by
  cases h with
  | node _ inside => exact inside

end Stmt

end Syntax

/-! ## What is written -/

open Syntax

mutual

theorem TypeWrites.formed : ∀ {t : TypeExpr} {w : List Piece}, TypeWrites t w → t.Formed
  | _, _, .named => .named
  | _, _, .array h => .array h.formed
  | _, _, .optional h _ => .optional h.formed
  | _, _, .sum h => .sum (formed_of_separatedTypes h).1 (formed_of_separatedTypes h).2
  | _, _, .function hparams hresult => .function (formed_of_closedTypes hparams) hresult.formed

theorem formed_of_separatedTypes : ∀ {ts : List TypeExpr} {w : List Piece},
    Separated TypeWrites ts w → ts ≠ [] ∧ ∀ t ∈ ts, t.Formed
  | _, _, .last h => ⟨List.cons_ne_nil _ _, List.forall_mem_singleton.mpr h.formed⟩
  | _, _, .more h rest =>
    ⟨List.cons_ne_nil _ _, List.forall_mem_cons.mpr ⟨h.formed, (formed_of_separatedTypes rest).2⟩⟩

theorem formed_of_closedTypes : ∀ {ts : List TypeExpr} {w : List Piece},
    Closed TypeWrites ts w → ∀ t ∈ ts, t.Formed
  | _, _, .none => List.forall_mem_nil _
  | _, _, .plain h | _, _, .trailing h => (formed_of_separatedTypes h).2

end

mutual

theorem ExprWrites.formed : ∀ {p : Power} {e : Expr} {w : List Piece}, ExprWrites p e w → e.Formed
  | _, _, _, .weaker h _ => h.formed
  | _, _, _, .int _ => .int
  | _, _, _, .float _ => .float
  | _, _, _, .string => .string
  | _, _, _, .bool => .bool
  | _, _, _, .symbol => .symbol
  | _, _, _, .group h => h.formed
  | _, _, _, .array h => .array (formed_of_separatedExprs h).1 (formed_of_separatedExprs h).2
  | _, _, _, .emptyArray h => .emptyArray h.formed
  | _, _, _, .absent h => .absent h.formed
  | _, _, _, .unary h => .unary h.formed
  | _, _, _, .binary hleft _ hright _ => .binary hleft.formed hright.formed
  | _, _, _, .conditional htest _ hyes hno _ => .conditional htest.formed hyes.formed hno.formed
  | _, _, _, .call hcallee hargs => .call hcallee.formed (formed_of_closedExprs hargs)
  | _, _, _, .subscript hitems hindex => .subscript hitems.formed hindex.formed
  | _, _, _, .member hobject => .member hobject.formed

theorem formed_of_separatedExprs : ∀ {es : List Expr} {w : List Piece},
    Separated (ExprWrites .weakest) es w → es ≠ [] ∧ ∀ e ∈ es, e.Formed
  | _, _, .last h => ⟨List.cons_ne_nil _ _, List.forall_mem_singleton.mpr h.formed⟩
  | _, _, .more h rest =>
    ⟨List.cons_ne_nil _ _, List.forall_mem_cons.mpr ⟨h.formed, (formed_of_separatedExprs rest).2⟩⟩

theorem formed_of_closedExprs : ∀ {es : List Expr} {w : List Piece},
    Closed (ExprWrites .weakest) es w → ∀ e ∈ es, e.Formed
  | _, _, .none => List.forall_mem_nil _
  | _, _, .plain h | _, _, .trailing h => (formed_of_separatedExprs h).2

end

/-! ## Statements -/

theorem BindingWrites.formed {b : Binding} {w : List Piece} (h : BindingWrites b w) :
    b.type.Formed := by
  cases h with
  | mk h => exact h.formed

theorem formed_of_closedBindings {bs : List Binding} {w : List Piece}
    (h : Closed BindingWrites bs w) : ∀ t ∈ bs.map (·.type), t.Formed := by
  have hitems : ∀ {bs : List Binding} {w : List Piece}, Separated BindingWrites bs w →
      ∀ b ∈ bs, b.type.Formed := by
    intro bs w h
    induction h with
    | last h => exact List.forall_mem_singleton.mpr h.formed
    | more h _ ih => exact List.forall_mem_cons.mpr ⟨h.formed, ih⟩
  rw [List.forall_mem_map]
  cases h with
  | none => exact List.forall_mem_nil _
  | plain h => exact hitems h
  | trailing h => exact hitems h

theorem formed_of_joinedBindings {bs : List Binding} {w : List Piece}
    (h : Joined (WithComma BindingWrites) bs w) : ∀ t ∈ bs.map (·.type), t.Formed := by
  rw [List.forall_mem_map]
  induction h with
  | nil => exact List.forall_mem_nil _
  | cons h _ ih =>
    refine List.forall_mem_cons.mpr ⟨?_, ih⟩
    cases h with
    | plain h => exact h.formed
    | comma h => exact h.formed

theorem ResultWrites.formed {result : Option TypeExpr} {w : List Piece}
    (h : ResultWrites result w) : ∀ t ∈ result.toList, t.Formed := by
  cases h with
  | none => exact List.forall_mem_nil _
  | some h => exact List.forall_mem_singleton.mpr h.formed

namespace Syntax.Stmt

variable {a : Stmt}

/-- Statements without others inside and without annotations. -/
theorem formed_of_exprs (hexprs : ∀ e ∈ a.exprs, e.Formed) (htypes : a.annotations = [])
    (hbodies : a.bodies = []) : a.Formed := by
  refine .node ⟨hexprs, ?_⟩ ?_
  · rw [htypes]
    exact List.forall_mem_nil _
  · rw [hbodies]
    exact List.forall_mem_nil _

/-- Statements with one list of others inside and without annotations. -/
theorem formed_of_body {body : Block} (hexprs : ∀ e ∈ a.exprs, e.Formed)
    (htypes : a.annotations = []) (hbodies : a.bodies = [body.body])
    (hbody : ∀ b ∈ body.body, b.Formed) : a.Formed := by
  refine .node ⟨hexprs, ?_⟩ ?_
  · rw [htypes]
    exact List.forall_mem_nil _
  · rw [hbodies]
    exact List.forall_mem_singleton.mpr hbody

theorem formed_branch {test : Expr} {body : Block} {rest : Alternative} {span : Span}
    (htest : test.Formed) (hbody : ∀ b ∈ body.body, b.Formed)
    (hrest : ∀ us ∈ rest.bodies, ∀ b ∈ us, b.Formed) : (branch test body rest span).Formed :=
  .node ⟨List.forall_mem_singleton.mpr htest, List.forall_mem_nil _⟩
    (List.forall_mem_cons.mpr ⟨hbody, hrest⟩)

end Syntax.Stmt

open Syntax.Stmt (formed_of_exprs formed_of_body formed_branch)

mutual

theorem StmtWrites.formed : ∀ {a : Stmt} {w : List Piece}, StmtWrites a w → a.Formed
  | _, _, .declare h | _, _, .increment h | _, _, .decrement h | _, _, .giveBack h
  | _, _, .perform h _ => formed_of_exprs (List.forall_mem_singleton.mpr h.formed) rfl rfl
  | _, _, .breakLoop | _, _, .leave => formed_of_exprs (List.forall_mem_nil _) rfl rfl
  | _, _, .assign htarget hvalue =>
    formed_of_exprs
      (List.forall_mem_cons.mpr ⟨htarget.formed, List.forall_mem_singleton.mpr hvalue.formed⟩)
      rfl rfl
  | _, _, .struct h =>
    .node ⟨List.forall_mem_nil _, formed_of_joinedBindings h⟩ (List.forall_mem_nil _)
  | _, _, .function hparams hresult hbody =>
    .node ⟨List.forall_mem_nil _,
        List.forall_mem_append.mpr ⟨formed_of_closedBindings hparams, hresult.formed⟩⟩
      (List.forall_mem_singleton.mpr hbody.formed)
  | _, _, .branch htest hbody hrest => formed_branch htest.formed hbody.formed hrest.formed
  | _, _, .whileLoop h hbody | _, _, .repeatLoop h hbody | _, _, .eachLoop h hbody =>
    formed_of_body (List.forall_mem_singleton.mpr h.formed) rfl rfl hbody.formed
  | _, _, .rangeLoop hlow hhigh hbody =>
    formed_of_body
      (List.forall_mem_cons.mpr ⟨hlow.formed, List.forall_mem_singleton.mpr hhigh.formed⟩)
      rfl rfl hbody.formed

theorem BlockWrites.formed : ∀ {b : Block} {w : List Piece}, BlockWrites b w →
    ∀ a ∈ b.body, a.Formed
  | _, _, .mk h => formed_of_joinedStmts h

theorem AlternativeWrites.formed : ∀ {rest : Alternative} {w : List Piece},
    AlternativeWrites rest w → ∀ us ∈ rest.bodies, ∀ a ∈ us, a.Formed
  | _, _, .nothing => List.forall_mem_nil _
  | _, _, .otherwise h => List.forall_mem_singleton.mpr h.formed
  | _, _, .elseIf htest hbody hrest =>
    List.forall_mem_singleton.mpr (List.forall_mem_singleton.mpr
      (formed_branch htest.formed hbody.formed hrest.formed))

theorem formed_of_joinedStmts : ∀ {as : List Stmt} {w : List Piece}, Joined StmtWrites as w →
    ∀ a ∈ as, a.Formed
  | _, _, .nil => List.forall_mem_nil _
  | _, _, .cons h rest => List.forall_mem_cons.mpr ⟨h.formed, formed_of_joinedStmts rest⟩

end

/-- **Every statement of a program that is read is formed.** -/
theorem formed_of_parse {tokens : List Token} {file : String} {b : Block}
    (h : parse tokens file = .ok b) : ∀ a ∈ b.body, a.Formed := by
  unfold parse Cursor.run at h
  split at h
  · rename_i hrun
    cases h
    obtain ⟨w, -, hw, -⟩ := Parse.reading_program _ _ _ _ hrun
    exact formed_of_joinedStmts hw
  · cases h

end Quill
