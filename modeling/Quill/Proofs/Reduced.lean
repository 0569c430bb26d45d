import Quill.Proofs.Identity

/-!
# One pass of simplification is enough

A program is reduced when no node of it can be simplified: no operator on literals has a known
result, no operand is neutral for its operator or settles it, no test of a branch is a literal, no
loop is known to be skipped and no variable is assigned to itself. `Expr.Redex` and `Stmt.Redex`
list what must not occur; they are about one node, and say nothing about types.

Results:
* `Expr.reduced_simplify`, `Stmt.reduced_simplify`: what comes out of simplification is reduced.
* `Expr.simplify_of_reduced`, `Stmt.simplify_of_reduced`: what is reduced stays as it is.
* **`Program.simplify_normal_form`**: both for programs, and so a second pass changes nothing.
-/

namespace Quill.Typed

/-! ## What can be simplified -/

namespace Expr

/-- The node can be simplified, whatever its parts can. -/
inductive Redex : Expr → Prop
  | conditional {b : Bool} {yes no : Expr} {t : Ty} : Redex (.conditional (.bool b) yes no t)
  | fold {op : BinaryOp} {a b c : Literal} {t : Ty} (h : Literal.foldBinary? op a b = some c) :
      Redex (.binary op (.literal a) (.literal b) t)
  | identity {op : BinaryOp} {l r : Expr} {t : Ty} {w : Replacement}
      (hlit : l.literal? = none ∨ r.literal? = none) (h : Replaces op l r w) :
      Redex (.binary op l r t)
  | unary {op : UnaryOp} {e : Expr} {c : Literal} {t : Ty} (h : foldUnary? op e = some c) :
      Redex (.unary op e t)

/-- No node of the expression can be simplified. -/
abbrev Reduced (e : Expr) : Prop := e.Everywhere fun e => ¬ Redex e

end Expr

namespace Stmt

/-- The statement can be simplified, whatever its parts can. -/
inductive Redex : Stmt → Prop
  | branch {b : Bool} {yes no : List Stmt} : Redex (.branch (.bool b) yes no)
  | shortBranch {b : Bool} {yes : List Stmt} : Redex (.shortBranch (.bool b) yes)
  | whileLoop {body : List Stmt} : Redex (.whileLoop (.bool false) body)
  | repeatLoop {n : Int64} {body : List Stmt} (h : n ≤ 0) : Redex (.repeatLoop (.int n) body)
  | rangeLoop {v : Variable} {low high : Expr} {op : RangeOp} {body : List Stmt}
      (h : isEmptyRange low op high = true) : Redex (.rangeLoop v low op high body)
  | eachLoop {v : Variable} {t : Ty} {body : List Stmt} : Redex (.eachLoop v (.emptyArray t) body)
  | assign {v w : Variable} {byReference : Bool} (h : v.id = w.id) :
      Redex (.assign (.variable v) (.variable w) byReference)

/-- Neither the statement, nor one inside it, nor a node of their expressions can be simplified. -/
abbrev Reduced (s : Stmt) : Prop := s.Everywhere (fun e => ¬ e.Redex) fun s => ¬ s.Redex

end Stmt

/-- Nothing in the program can be simplified. -/
def Program.Reduced (p : Program) : Prop := p.Everywhere (fun e => ¬ e.Redex) fun s => ¬ s.Redex

/-! ## Expressions -/

namespace Expr

variable {e l r : Expr} {op : BinaryOp} {t : Ty}

theorem reduced_literal (a : Literal) : (Expr.literal a).Reduced := .node nofun nofun

/-- **What an operator becomes.** It stays if it cannot be simplified, and otherwise gives way to a
literal, to one of its operands, or to the opposite of a right operand that is no literal. -/
theorem simplifyBinary_cases (op : BinaryOp) (l r : Expr) (t : Ty) :
    (¬ Redex (.binary op l r t) ∧ simplifyBinary op l r t = .binary op l r t) ∨
    (Redex (.binary op l r t) ∧
      ((∃ c, simplifyBinary op l r t = .literal c) ∨ simplifyBinary op l r t = l ∨
        simplifyBinary op l r t = r ∨
        (r.literal? = none ∧ simplifyBinary op l r t = .unary .negate r t))) := by
  rcases both_literals_or l r with ⟨a, b, rfl, rfl⟩ | hlit
  · rw [simplifyBinary_literals]
    cases hc : Literal.foldBinary? op a b with
    | some c => exact .inr ⟨.fold hc, .inl ⟨c, rfl⟩⟩
    | none =>
      refine .inl ⟨fun h => ?_, rfl⟩
      cases h with
      | fold h => rw [hc] at h; cases h
      | identity hlit _ => exact absurd hlit (by simp [literal?])
  · rw [simplifyBinary_of_literal?_eq_none hlit]
    cases hw : replacement? op l r with
    | none =>
      refine .inl ⟨fun h => ?_, rfl⟩
      cases h with
      | fold h => exact absurd hlit (by simp [literal?])
      | identity _ h => exact replacement?_ne_none h hw
    | some w =>
      have hrep := replaces_of_replacement? hw
      refine .inr ⟨.identity hlit hrep, ?_⟩
      cases w with
      | left => exact .inr (.inl rfl)
      | right => exact .inr (.inr (.inl rfl))
      | zero => exact .inl (zeroOf_eq_literal t)
      | one => exact .inl (oneOf_eq_literal t)
      | truth b => exact .inl ⟨_, rfl⟩
      | opposite =>
        -- the left operand is the literal zero, so the right one is no literal
        cases hrep with
        | zero_subtract h =>
          obtain ⟨c, rfl⟩ := eq_literal_of_isZero h
          exact .inr (.inr (.inr ⟨hlit.resolve_left nofun, rfl⟩))

theorem reduced_simplifyBinary (hl : l.Reduced) (hr : r.Reduced) :
    (simplifyBinary op l r t).Reduced := by
  rcases simplifyBinary_cases op l r t with ⟨hn, h⟩ | ⟨-, ⟨c, h⟩ | h | h | ⟨hlit, h⟩⟩ <;> rw [h]
  · exact .node hn (by simpa [parts] using ⟨hl, hr⟩)
  · exact reduced_literal c
  · exact hl
  · exact hr
  · refine .node (fun hu => ?_) (by simpa [parts] using hr)
    cases hu with
    | unary h => simp [foldUnary?, hlit] at h

theorem reduced_simplifyUnary {op : UnaryOp} (he : e.Reduced) : (simplifyUnary op e t).Reduced := by
  unfold simplifyUnary
  split
  · exact reduced_literal _
  · rename_i hnone
    refine .node (fun hu => ?_) (by simpa [parts] using he)
    cases hu with
    | unary h => rw [hnone] at h; cases h

theorem reduced_simplifyConditional (he : e.Reduced) (hl : l.Reduced) (hr : r.Reduced) :
    (simplifyConditional e l r t).Reduced := by
  unfold simplifyConditional
  split_ifs with ht hf
  · exact hl
  · exact hr
  · refine .node (fun hc => ?_) (by simpa [parts] using ⟨he, hl, hr⟩)
    cases hc with
    | @conditional b => cases b <;> simp [isBool] at ht hf

/-- What comes out of simplification cannot be simplified. -/
theorem reduced_simplify (e : Expr) : e.simplify.Reduced := by
  induction e using Expr.induction with
  | literal l => exact reduced_literal l
  | conditional test yes no t ht hy hn => exact reduced_simplifyConditional ht hy hn
  | binary op l r t hl hr => exact reduced_simplifyBinary hl hr
  | unary op e t ih => exact reduced_simplifyUnary ih
  | array es t ih =>
    rw [simplify, simplifyAll_eq_map]
    exact .node nofun (by simpa [parts] using ih)
  | emptyArray t => exact .node nofun nofun
  | absent t => exact .node nofun nofun
  | subscript a i t ha hi =>
    rw [simplify]
    exact .node nofun (by simpa [parts] using ⟨ha, hi⟩)
  | member o f c t ih =>
    rw [simplify]
    exact .node nofun (by simpa [parts] using ih)
  | call c args t hc ih =>
    rw [simplify, simplifyAll_eq_map]
    exact .node nofun (by simpa [parts] using ⟨hc, ih⟩)
  | construct id args ih =>
    rw [simplify, simplifyAll_eq_map]
    exact .node nofun (by simpa [parts] using ih)
  | var v => exact .node nofun nofun
  | function f => exact .node nofun nofun

theorem simplifyBinary_of_not_redex (h : ¬ Redex (.binary op l r t)) :
    simplifyBinary op l r t = .binary op l r t := by
  rcases simplifyBinary_cases op l r t with ⟨-, heq⟩ | ⟨hr, -⟩
  · exact heq
  · exact absurd hr h

/-- What cannot be simplified stays as it is. -/
theorem simplify_of_reduced (h : e.Reduced) : e.simplify = e := by
  induction e using Expr.induction with
  | literal l => rfl
  | conditional test yes no t ht hy hn =>
    obtain ⟨it, iy, iN⟩ : test.Reduced ∧ yes.Reduced ∧ no.Reduced := by
      simpa [parts] using h.inside
    rw [simplify, ht it, hy iy, hn iN, simplifyConditional]
    split_ifs with hb hb
    · obtain rfl := eq_bool_of_isBool hb
      exact absurd .conditional h.here
    · obtain rfl := eq_bool_of_isBool hb
      exact absurd .conditional h.here
    · rfl
  | binary op l r t hl hr =>
    obtain ⟨il, ir⟩ : l.Reduced ∧ r.Reduced := by simpa [parts] using h.inside
    rw [simplify, hl il, hr ir, simplifyBinary_of_not_redex h.here]
  | unary op e t ih =>
    have ie : e.Reduced := by simpa [parts] using h.inside
    rw [simplify, ih ie, simplifyUnary]
    cases hc : foldUnary? op e with
    | none => rfl
    | some c => exact absurd (.unary hc) h.here
  | array es t ih =>
    rw [simplify, simplifyAll_eq_map, List.map_congr_left fun e he => ih e he (h.inside e he),
      List.map_id']
  | emptyArray t => rfl
  | absent t => rfl
  | subscript a i t ha hi =>
    obtain ⟨ia, ii⟩ : a.Reduced ∧ i.Reduced := by simpa [parts] using h.inside
    rw [simplify, ha ia, hi ii]
  | member o f c t ih =>
    have io : o.Reduced := by simpa [parts] using h.inside
    rw [simplify, ih io]
  | call c args t hc ih =>
    obtain ⟨ic, ia⟩ : c.Reduced ∧ ∀ e ∈ args, e.Reduced := by simpa [parts] using h.inside
    rw [simplify, hc ic, simplifyAll_eq_map, List.map_congr_left fun e he => ih e he (ia e he),
      List.map_id']
  | construct id args ih =>
    rw [simplify, simplifyAll_eq_map, List.map_congr_left fun e he => ih e he (h.inside e he),
      List.map_id']
  | var v => rfl
  | function f => rfl

end Expr

/-! ## Statements -/

namespace Stmt

variable {s : Stmt} {ss : List Stmt}

theorem reduced_simplifyAll (h : ∀ s ∈ ss, ∀ c ∈ s.simplify, c.Reduced) :
    ∀ c ∈ simplifyAll ss, c.Reduced := by
  intro c hc
  rw [simplifyAll_eq_flatMap] at hc
  obtain ⟨s, hs, hc⟩ := List.mem_flatMap.mp hc
  exact h s hs c hc

/-- A statement with reduced expressions and bodies is reduced unless it can be simplified
itself. -/
theorem reduced_of_not_redex (h : ¬ s.Redex) (he : ∀ e ∈ s.exprs, e.Reduced)
    (hi : ∀ c ∈ s.inner, c.Reduced) : ∀ c ∈ [s], c.Reduced := by
  intro c hc
  obtain rfl := List.mem_singleton.mp hc
  exact .node h he hi

/-- What is left of a statement cannot be simplified. -/
theorem reduced_simplify (s : Stmt) : ∀ c ∈ s.simplify, c.Reduced := by
  induction s using Stmt.induction with
  | step s ih =>
    cases s with
    | declare v r e => exact reduced_of_not_redex nofun (by simp [exprs, e.reduced_simplify]) nofun
    | struct id => exact reduced_of_not_redex nofun nofun nofun
    | function f ps body => exact reduced_of_not_redex nofun nofun (reduced_simplifyAll ih)
    | assign target source r =>
      simp only [simplify]
      split_ifs with h
      · exact nofun
      · refine reduced_of_not_redex (fun hr => ?_)
          (by simp [exprs, target.reduced_simplify, source.reduced_simplify]) nofun
        generalize target.simplify = t, source.simplify = u at h hr
        cases hr with
        | assign hid => exact h (decide_eq_true hid)
    | increment e => exact reduced_of_not_redex nofun (by simp [exprs, e.reduced_simplify]) nofun
    | decrement e => exact reduced_of_not_redex nofun (by simp [exprs, e.reduced_simplify]) nofun
    | breakLoop => exact reduced_of_not_redex nofun nofun nofun
    | giveBack e =>
      cases e with
      | none => exact reduced_of_not_redex nofun nofun nofun
      | some e => exact reduced_of_not_redex nofun (by simp [exprs, e.reduced_simplify]) nofun
    | branch test yes no =>
      have hyes := reduced_simplifyAll fun s hs => ih s (List.mem_append_left _ hs)
      have hno := reduced_simplifyAll fun s hs => ih s (List.mem_append_right _ hs)
      simp only [simplify]
      split_ifs with ht hf
      · exact hyes
      · exact hno
      · refine reduced_of_not_redex (fun hr => ?_) (by simp [exprs, test.reduced_simplify])
          fun c hc => (List.mem_append.mp hc).elim (hyes c) (hno c)
        generalize test.simplify = t at ht hf hr
        cases hr with
        | @branch b => cases b <;> simp [Expr.isBool] at ht hf
    | shortBranch test yes =>
      simp only [simplify]
      split_ifs with ht hf
      · exact reduced_simplifyAll ih
      · exact nofun
      · refine reduced_of_not_redex (fun hr => ?_) (by simp [exprs, test.reduced_simplify])
          (reduced_simplifyAll ih)
        generalize test.simplify = t at ht hf hr
        cases hr with
        | @shortBranch b => cases b <;> simp [Expr.isBool] at ht hf
    | whileLoop test body =>
      simp only [simplify]
      split_ifs with hf
      · exact nofun
      · refine reduced_of_not_redex (fun hr => ?_) (by simp [exprs, test.reduced_simplify])
          (reduced_simplifyAll ih)
        generalize test.simplify = t at hf hr
        cases hr with
        | whileLoop => simp [Expr.isBool] at hf
    | repeatLoop count body =>
      simp only [simplify]
      split_ifs with hn
      · exact nofun
      · refine reduced_of_not_redex (fun hr => ?_) (by simp [exprs, count.reduced_simplify])
          (reduced_simplifyAll ih)
        generalize count.simplify = n at hn hr
        cases hr with
        | repeatLoop h => exact hn (decide_eq_true h)
    | rangeLoop v low op high body =>
      simp only [simplify]
      split_ifs with he
      · exact nofun
      · refine reduced_of_not_redex (fun hr => ?_)
          (by simp [exprs, low.reduced_simplify, high.reduced_simplify]) (reduced_simplifyAll ih)
        cases hr with
        | rangeLoop h => exact he h
    | eachLoop v e body =>
      simp only [simplify]
      split_ifs with he
      · exact nofun
      · refine reduced_of_not_redex (fun hr => ?_) (by simp [exprs, e.reduced_simplify])
          (reduced_simplifyAll ih)
        generalize e.simplify = a at he hr
        cases hr with
        | eachLoop => exact he rfl
    | perform e => exact reduced_of_not_redex nofun (by simp [exprs, e.reduced_simplify]) nofun

theorem simplifyAll_of_reduced (h : ∀ s ∈ ss, s.simplify = [s]) : simplifyAll ss = ss := by
  rw [simplifyAll_eq_flatMap, List.flatMap_congr h, List.flatMap_singleton']

/-- What cannot be simplified stays as it is. -/
theorem simplify_of_reduced (h : s.Reduced) : s.simplify = [s] := by
  induction s using Stmt.induction with
  | step s ih =>
    have hn := h.here
    have he : ∀ e ∈ s.exprs, e.simplify = e := fun e he => Expr.simplify_of_reduced (h.exprs e he)
    have hi : ∀ c ∈ s.inner, c.simplify = [c] := fun c hc => ih c hc (h.inside c hc)
    cases s with
    | declare v r e => rw [simplify, he e (by simp [exprs])]
    | struct id => rfl
    | function f ps body =>
      have hbody : simplifyAll body = body := simplifyAll_of_reduced hi
      rw [simplify, hbody]
    | assign target source r =>
      simp only [simplify, he target (by simp [exprs]), he source (by simp [exprs])]
      split_ifs with h
      · obtain ⟨v, w, rfl, rfl, hid⟩ := eq_variable_of_isSameVariable h
        exact absurd (.assign hid) hn
      · rfl
    | increment e => rw [simplify, he e (by simp [exprs])]
    | decrement e => rw [simplify, he e (by simp [exprs])]
    | breakLoop => rfl
    | giveBack e =>
      cases e with
      | none => rfl
      | some e => rw [simplify, Option.map_some, he e (by simp [exprs])]
    | branch test yes no =>
      have hyes := simplifyAll_of_reduced fun s hs => hi s (List.mem_append_left _ hs)
      have hno := simplifyAll_of_reduced fun s hs => hi s (List.mem_append_right _ hs)
      simp only [simplify, he test (by simp [exprs]), hyes, hno]
      split_ifs with hb hb
      · obtain rfl := Expr.eq_bool_of_isBool hb
        exact absurd .branch hn
      · obtain rfl := Expr.eq_bool_of_isBool hb
        exact absurd .branch hn
      · rfl
    | shortBranch test yes =>
      have hyes : simplifyAll yes = yes := simplifyAll_of_reduced hi
      simp only [simplify, he test (by simp [exprs]), hyes]
      split_ifs with hb hb
      · obtain rfl := Expr.eq_bool_of_isBool hb
        exact absurd .shortBranch hn
      · obtain rfl := Expr.eq_bool_of_isBool hb
        exact absurd .shortBranch hn
      · rfl
    | whileLoop test body =>
      have hbody : simplifyAll body = body := simplifyAll_of_reduced hi
      simp only [simplify, he test (by simp [exprs]), hbody]
      split_ifs with hb
      · obtain rfl := Expr.eq_bool_of_isBool hb
        exact absurd .whileLoop hn
      · rfl
    | repeatLoop count body =>
      have hbody : simplifyAll body = body := simplifyAll_of_reduced hi
      simp only [simplify, he count (by simp [exprs]), hbody]
      split_ifs with hc
      · obtain ⟨n, rfl, hle⟩ := eq_int_of_isNoRound hc
        exact absurd (.repeatLoop hle) hn
      · rfl
    | rangeLoop v low op high body =>
      have hbody : simplifyAll body = body := simplifyAll_of_reduced hi
      simp only [simplify, he low (by simp [exprs]), he high (by simp [exprs]), hbody]
      split_ifs with hr
      · exact absurd (.rangeLoop hr) hn
      · rfl
    | eachLoop v e body =>
      have hbody : simplifyAll body = body := simplifyAll_of_reduced hi
      simp only [simplify, he e (by simp [exprs]), hbody]
      split_ifs with hc
      · obtain ⟨t, rfl⟩ := Expr.eq_emptyArray_of_isEmptyArray hc
        exact absurd .eachLoop hn
      · rfl
    | perform e => rw [simplify, he e (by simp [exprs])]

end Stmt

/-! ## Programs -/

namespace Program

theorem reduced_simplify (p : Program) : p.simplify.Reduced :=
  Stmt.reduced_simplifyAll fun s _ => s.reduced_simplify

theorem simplify_of_reduced {q : Program} (h : q.Reduced) : q.simplify = q := by
  have hq := Stmt.simplifyAll_of_reduced fun s hs => Stmt.simplify_of_reduced (h s hs)
  rw [simplify, hq]

/-- **One pass reaches a normal form.** A simplified program is reduced, a reduced program stays as
it is, and so simplifying a second time changes nothing. None of it asks for a well-typed
program. -/
theorem simplify_normal_form :
    (∀ p : Program, p.simplify.Reduced) ∧ (∀ q : Program, q.Reduced → q.simplify = q) ∧
      ∀ p : Program, p.simplify.simplify = p.simplify :=
  ⟨reduced_simplify, fun _ => simplify_of_reduced, fun p => simplify_of_reduced p.reduced_simplify⟩

/-- `while x < 10 { x++; }` -/
def counting : Program :=
  let x : Variable := ⟨0, "x", false, .int⟩
  ⟨[.whileLoop (.binary .less (.variable x) (.int 10) .bool) [.increment (.variable x)]], .empty⟩

theorem simplify_counting : counting.Reduced ∧ counting.simplify = counting := by
  have hx (v : Variable) : (Expr.variable v).Reduced := .node nofun nofun
  have htest (v : Variable) : (Expr.binary .less (.variable v) (.int 10) .bool).Reduced := by
    refine .node (fun h => ?_) (List.forall_mem_cons.mpr ⟨hx v, List.forall_mem_singleton.mpr
      (Expr.reduced_literal _)⟩)
    cases h with
    | identity _ h => cases h
  have hbody (v : Variable) : (Stmt.increment (.variable v)).Reduced :=
    .node nofun (List.forall_mem_singleton.mpr (hx v)) nofun
  have hq : counting.Reduced := List.forall_mem_singleton.mpr (.node nofun
    (List.forall_mem_singleton.mpr (htest _)) (List.forall_mem_singleton.mpr (hbody _)))
  exact ⟨hq, simplify_normal_form.2.1 counting hq⟩

end Program

end Quill.Typed
