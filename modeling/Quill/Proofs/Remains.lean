import Quill.Compile
import Quill.Proofs.Reduced
import Quill.Proofs.Site

/-!
# What is left of a statement, and where

Simplification leaves of an expression the expression itself, rebuilt from its simplified parts, or
one of the parts, as it is or negated, or a literal. It leaves of a statement the statement itself,
rebuilt, or one of the lists inside a branch, or nothing. So every statement of a simplified program
is a statement of the program before, rebuilt; it may stand further out than it did, but only
branches around it are gone. `Site.Admits d' d` says what this comes to: at `d'` the same function
is around as at `d`, a loop if there was one, and all declarations are visible that were visible at
`d`.

Results:
* `Expr.simplify_cases`, `Stmt.simplify_cases`: what is left of an expression and of a statement.
* `Expr.everywhere_simplify`: what holds of every rebuilt node holds of every node that is left.
* `Program.at_simplify`: where the statements of a simplified program come from.
* `Program.forall_at_simplifyTimes`: what holds of every statement at its site still does after any
  number of passes, if rebuilding a statement and moving it to a site that admits it keep it.
-/

namespace Quill.Typed

/-! ## What is left -/

namespace Expr

/-- The expression with its parts simplified. -/
def rebuild : Expr → Expr
  | .conditional test yes no t => .conditional test.simplify yes.simplify no.simplify t
  | .binary op left right t => .binary op left.simplify right.simplify t
  | .unary op operand t => .unary op operand.simplify t
  | .array elements t => .array (elements.map simplify) t
  | .subscript items index t => .subscript items.simplify index.simplify t
  | .member object field chained t => .member object.simplify field chained t
  | .call callee args t => .call callee.simplify (args.map simplify) t
  | .construct id args => .construct id (args.map simplify)
  | e => e

@[simp] theorem parts_rebuild (e : Expr) : e.rebuild.parts = e.parts.map simplify := by
  cases e <;> rfl

/-- **What is left of an expression**: the expression, rebuilt; a literal; or one of its parts, as
it is or negated. -/
theorem simplify_cases (e : Expr) :
    e.simplify = e.rebuild ∨ (∃ c, e.simplify = .literal c) ∨
      (∃ c ∈ e.parts, e.simplify = c.simplify) ∨
      ∃ c ∈ e.parts, e.simplify = .unary .negate c.simplify e.type := by
  cases e with
  | conditional test yes no t =>
    rw [simplify, simplifyConditional]
    split_ifs
    · exact .inr (.inr (.inl ⟨yes, by simp [parts], rfl⟩))
    · exact .inr (.inr (.inl ⟨no, by simp [parts], rfl⟩))
    · exact .inl rfl
  | binary op left right t =>
    rw [simplify]
    rcases simplifyBinary_cases op left.simplify right.simplify t with
      ⟨-, heq⟩ | ⟨-, hc | heq | heq | ⟨-, heq⟩⟩
    · exact .inl heq
    · exact .inr (.inl hc)
    · exact .inr (.inr (.inl ⟨left, by simp [parts], heq⟩))
    · exact .inr (.inr (.inl ⟨right, by simp [parts], heq⟩))
    · exact .inr (.inr (.inr ⟨right, by simp [parts], heq⟩))
  | unary op operand t =>
    rw [simplify, simplifyUnary]
    split
    · exact .inr (.inl ⟨_, rfl⟩)
    · exact .inl rfl
  | array | call | construct =>
    rw [simplify, simplifyAll_eq_map]
    exact .inl rfl
  | _ => exact .inl rfl

/-- What holds of every rebuilt node, of literals and of negations of the type of a node holds of
every node that is left. -/
theorem everywhere_simplify {P Q : Expr → Prop} (rebuilt : ∀ e : Expr, e.Everywhere P → Q e.rebuild)
    (literal : ∀ c, Q (.literal c)) (negated : ∀ e c : Expr, P e → Q (.unary .negate c e.type))
    {e : Expr} (h : e.Everywhere P) : e.simplify.Everywhere Q := by
  induction h with
  | @node e here inside ih =>
    rcases e.simplify_cases with heq | ⟨c, heq⟩ | ⟨c, hc, heq⟩ | ⟨c, hc, heq⟩ <;> rw [heq]
    · refine .node (rebuilt e (.node here inside)) ?_
      rw [parts_rebuild]
      exact List.forall_mem_map.mpr ih
    · exact .node (literal c) (List.forall_mem_nil _)
    · exact ih c hc
    · exact .node (negated e _ here) (List.forall_mem_singleton.mpr (ih c hc))

end Expr

namespace Stmt

/-- The statement with its expressions and the lists inside it simplified. -/
def rebuild : Stmt → Stmt
  | .declare v byReference value => .declare v byReference value.simplify
  | .struct id => .struct id
  | .function f params body => .function f params (simplifyAll body)
  | .assign target source byReference => .assign target.simplify source.simplify byReference
  | .increment target => .increment target.simplify
  | .decrement target => .decrement target.simplify
  | .breakLoop => .breakLoop
  | .giveBack value => .giveBack (value.map Expr.simplify)
  | .branch test yes no => .branch test.simplify (simplifyAll yes) (simplifyAll no)
  | .shortBranch test yes => .shortBranch test.simplify (simplifyAll yes)
  | .whileLoop test body => .whileLoop test.simplify (simplifyAll body)
  | .repeatLoop count body => .repeatLoop count.simplify (simplifyAll body)
  | .rangeLoop v low op high body => .rangeLoop v low.simplify op high.simplify (simplifyAll body)
  | .eachLoop v collection body => .eachLoop v collection.simplify (simplifyAll body)
  | .perform call => .perform call.simplify

variable (s : Stmt)

@[simp] theorem bodies_rebuild : s.rebuild.bodies = s.bodies.map simplifyAll := by
  cases s <;> rfl

@[simp] theorem exprs_rebuild : s.rebuild.exprs = s.exprs.map Expr.simplify := by
  cases s with
  | giveBack value => cases value <;> rfl
  | _ => rfl

@[simp] theorem isLoop_rebuild : s.rebuild.isLoop = s.isLoop := by
  cases s <;> rfl

@[simp] theorem function?_rebuild : s.rebuild.function? = s.function? := by
  cases s <;> rfl

@[simp] theorem declared?_rebuild : s.rebuild.declared? = s.declared? := by
  cases s <;> rfl

@[simp] theorem locals_rebuild : s.rebuild.locals = s.locals := by
  cases s <;> rfl

/-- **What is left of a statement**: the statement, rebuilt; a list inside it, if it is a branch; or
nothing, if it declares nothing. -/
theorem simplify_cases :
    s.simplify = [s.rebuild] ∨
    (s.isBranch = true ∧ ∃ arm ∈ s.bodies, s.simplify = simplifyAll arm) ∨
    (s.declared? = none ∧ s.simplify = []) := by
  cases s with
  | assign target source byReference =>
    simp only [simplify]
    split_ifs
    · exact .inr (.inr ⟨rfl, rfl⟩)
    · exact .inl rfl
  | branch test yes no =>
    simp only [simplify]
    split_ifs
    · exact .inr (.inl ⟨rfl, yes, by simp [bodies], rfl⟩)
    · exact .inr (.inl ⟨rfl, no, by simp [bodies], rfl⟩)
    · exact .inl rfl
  | shortBranch test yes =>
    simp only [simplify]
    split_ifs
    · exact .inr (.inl ⟨rfl, yes, by simp [bodies], rfl⟩)
    · exact .inr (.inr ⟨rfl, rfl⟩)
    · exact .inl rfl
  | whileLoop | repeatLoop | rangeLoop | eachLoop =>
    simp only [simplify]
    split_ifs
    · exact .inr (.inr ⟨rfl, rfl⟩)
    · exact .inl rfl
  | _ => exact .inl rfl

/-- Declarations are never dropped from their list. -/
theorem exists_declared?_of_simplify {x : Entity} (h : s.declared? = some x) :
    ∃ t ∈ s.simplify, t.declared? = some x := by
  rcases s.simplify_cases with heq | ⟨hbranch, -⟩ | ⟨hnone, -⟩
  · exact ⟨s.rebuild, by simp [heq], by simpa using h⟩
  · rw [declared?_of_isBranch hbranch] at h
    cases h
  · rw [h] at hnone
    cases hnone

end Stmt

/-! ## Where it may stand -/

/-- What stands at `d` may stand at `d'`: the same function is around, and a loop if there was one,
and every declaration that was visible still is. -/
structure Site.Admits (d' d : Site) : Prop where
  inLoop : d.InLoop → d'.InLoop
  function? : d'.function? = d.function?
  visible : ∀ x ∈ d.visible, x ∈ d'.visible

namespace Site.Admits

variable {c c' : Site}

theorem refl (d : Site) : d.Admits d := ⟨id, rfl, fun _ h => h⟩

/-- Behind a list, if another list declares at least as much. -/
theorem past (hc : c'.Admits c) {ss rr : List Stmt}
    (h : ∀ s ∈ ss, ∀ x, s.declared? = some x → ∃ t ∈ rr, t.declared? = some x) :
    (c'.past rr).Admits (c.past ss) where
  inLoop := hc.inLoop
  function? := hc.function?
  visible x hx := by
    rw [Site.mem_visible_past] at hx ⊢
    rcases hx with hx | ⟨s, hs, hx⟩
    · exact .inl (hc.visible x hx)
    · exact .inr (h s hs x hx)

theorem into (hc : c'.Admits c) (s : Stmt) : (c'.into s.rebuild).Admits (c.into s) where
  inLoop := by
    cases hl : s.isLoop with
    | true => exact fun _ => Site.inLoop_into_loop (by simpa using hl)
    | false =>
      cases hf : s.function? with
      | some f => exact fun h => absurd h (Site.inLoop_into_function hf)
      | none =>
        rw [Site.inLoop_into_other hl hf,
          Site.inLoop_into_other (by simpa using hl) (by simpa using hf)]
        exact hc.inLoop
  function? := by
    cases hf : s.function? with
    | some f =>
      rw [Site.function?_into_function hf, Site.function?_into_function (by simpa using hf)]
    | none =>
      rw [Site.function?_into_other hf, Site.function?_into_other (by simpa using hf), hc.function?]
  visible x hx := by
    simp only [Site.mem_visible_into, Stmt.locals_rebuild, Stmt.declared?_rebuild] at hx ⊢
    exact hx.imp_right (Or.imp_right (hc.visible x))

/-- What stands in an arm of a branch may take the place of the branch. -/
theorem arm (hc : c'.Admits c) {s : Stmt} (h : s.isBranch = true) : c'.Admits (c.into s) where
  inLoop hin := hc.inLoop ((Site.inLoop_into_branch h).mp hin)
  function? := hc.function?.trans (Site.function?_into_branch h).symm
  visible x hx := hc.visible x ((Site.mem_visible_into_branch h).mp hx)

end Site.Admits

/-! ## Where it comes from -/

/-- Every statement that stands in the second list is one that stands in the first, rebuilt, at a
site that admits it. -/
def Kept (ss rr : List Stmt) : Prop :=
  ∀ ⦃c c' d' : Site⦄ ⦃t' : Stmt⦄, c'.Admits c → Stands c' rr d' t' →
    ∃ d t, Stands c ss d t ∧ d'.Admits d ∧ t' = t.rebuild

namespace Kept

theorem nil (ss : List Stmt) : Kept ss [] := nofun

/-- What is left of a list is kept if what is left of each of its statements is. -/
theorem simplifyAll : ∀ {ss : List Stmt}, (∀ s ∈ ss, Kept [s] s.simplify) →
    Kept ss (Stmt.simplifyAll ss)
  | [], _ => nil []
  | s :: ss, h => by
    intro c c' d' t' hc ht
    rw [Stmt.simplifyAll, Stands.append_iff] at ht
    rcases ht with ht | ht
    · obtain ⟨d, t, hst, hd, rfl⟩ := h s List.mem_cons_self hc ht
      exact ⟨d, t, Stands.append_iff.mpr (.inl hst), hd, rfl⟩
    · have hpast : (c'.past s.simplify).Admits (c.past [s]) := by
        refine hc.past fun u hu x hx => ?_
        obtain rfl := List.mem_singleton.mp hu
        exact u.exists_declared?_of_simplify hx
      obtain ⟨d, t, hst, hd, rfl⟩ :=
        simplifyAll (fun u hu => h u (List.mem_cons_of_mem s hu)) hpast ht
      exact ⟨d, t, .later hst, hd, rfl⟩

/-- By induction on the statement; in each of the three cases of what is left of it, the induction
hypothesis is used for the lists inside. -/
theorem simplify (s : Stmt) : Kept [s] s.simplify := by
  induction s using Stmt.induction with
  | step s ih =>
    have hbody : ∀ body ∈ s.bodies, Kept body (Stmt.simplifyAll body) := by
      intro body hb
      refine simplifyAll fun u hu => ih u ?_
      rw [Stmt.inner_eq_flatten_bodies]
      exact List.mem_flatten.mpr ⟨body, hb, hu⟩
    intro c c' d' t' hc ht
    rcases s.simplify_cases with heq | ⟨hbranch, arm, harm, heq⟩ | ⟨-, heq⟩
    · rw [heq] at ht
      cases ht with
      | here => exact ⟨c, s, .here, hc, rfl⟩
      | later h => cases h
      | inside hb h =>
        rw [Stmt.bodies_rebuild] at hb
        obtain ⟨body, hmem, rfl⟩ := List.mem_map.mp hb
        obtain ⟨d, t, hst, hd, rfl⟩ := hbody body hmem (hc.into s) h
        exact ⟨d, t, .inside hmem hst, hd, rfl⟩
    · rw [heq] at ht
      obtain ⟨d, t, hst, hd, rfl⟩ := hbody arm harm (hc.arm hbranch) ht
      exact ⟨d, t, .inside harm hst, hd, rfl⟩
    · rw [heq] at ht
      cases ht

end Kept

/-! ## Programs -/

namespace Program

variable {p : Program}

/-- **Every statement of a simplified program is one of the program, rebuilt**, at a site that
admits it. -/
theorem at_simplify {d' : Site} {t' : Stmt} (h : p.simplify.At d' t') :
    ∃ d t, p.At d t ∧ d'.Admits d ∧ t' = t.rebuild :=
  Kept.simplifyAll (fun s _ => Kept.simplify s) (.refl _) h

/-- What holds of every statement of a program at its site does so after any number of passes, if
rebuilding the statement and moving it keep it. -/
theorem forall_at_simplifyTimes {Q : Site → Stmt → Prop}
    (hQ : ∀ {d d' : Site} {t : Stmt}, d'.Admits d → Q d t → Q d' t.rebuild)
    (h : ∀ d t, p.At d t → Q d t) (n : Nat) : ∀ d t, (p.simplifyTimes n).At d t → Q d t := by
  induction n with
  | zero => exact h
  | succ n ih =>
    intro d' t' ht'
    obtain ⟨d, t, ht, hd, rfl⟩ := at_simplify (p := p.simplifyTimes n) ht'
    exact hQ hd (ih d t ht)

end Program

end Quill.Typed
