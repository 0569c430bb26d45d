import Quill.Proofs.Agreement
import Quill.Proofs.Remains

/-!
# Identities and their scopes

Every variable and every function of a program has an identity of its own. `Program.ids` lists the
identities that a program declares, in the order of their declaration, bodies included; `InScope`
says of a node of an expression at a place that, if it is a variable or a function, it belongs to
the library or has been declared at the place.

Checking hands out identities one after the other, so that those of a program are consecutive
numbers. Simplification drops statements and puts arms in the place of branches: it drops
identities, but doubles none, and what is left of a use still has its declaration before it or
around it.

Results:
* `Checks.ids`: identities are consecutive.
* `Program.ids_simplify_sublist`: simplification drops identities, and does nothing else to them.
* `Expr.simplify_everywhere`: simplification makes no use of a name that was not there.
* **`Check.scoped_simplifyTimes`**: after any number of passes, each identity is declared once, and
  every use lies in the scope of its declaration.
-/

namespace Quill

namespace Typed

/-! ## Declared identities -/

namespace Stmt

mutual

/-- The identities that are declared by a statement and inside it. -/
def ids : Stmt → List Nat
  | .declare v _ _ => [v.id]
  | .function f params body => f.id :: params.map (·.id) ++ idsAll body
  | .branch _ yes no => idsAll yes ++ idsAll no
  | .shortBranch _ body | .whileLoop _ body | .repeatLoop _ body => idsAll body
  | .rangeLoop v _ _ _ body | .eachLoop v _ body => v.id :: idsAll body
  | .struct _ | .assign _ _ _ | .increment _ | .decrement _ | .breakLoop | .giveBack _
  | .perform _ => []

/-- The identities that are declared in a list. -/
def idsAll : List Stmt → List Nat
  | [] => []
  | s :: rest => s.ids ++ idsAll rest

end

/-- The identities that a statement declares, those inside it left out. -/
def ownIds (s : Stmt) : List Nat :=
  (s.declared?.bind Entity.id?).toList ++ s.locals.map (·.id)

theorem ids_eq (s : Stmt) : s.ids = s.ownIds ++ s.bodies.flatMap idsAll := by
  cases s <;> simp [ids, ownIds, declared?, locals, bodies, Entity.id?]

theorem idsAll_append (ss rr : List Stmt) : idsAll (ss ++ rr) = idsAll ss ++ idsAll rr := by
  induction ss with
  | nil => rfl
  | cons s ss ih => rw [List.cons_append, idsAll, idsAll, ih, List.append_assoc]

theorem idsAll_simplifyAll_sublist {ss : List Stmt}
    (h : ∀ s ∈ ss, (idsAll s.simplify).Sublist s.ids) :
    (idsAll (simplifyAll ss)).Sublist (idsAll ss) := by
  induction ss with
  | nil => exact List.Sublist.refl _
  | cons s ss ih =>
    rw [simplifyAll, idsAll_append, idsAll]
    exact (h s List.mem_cons_self).append (ih fun t ht => h t (List.mem_cons_of_mem s ht))

/-- What is left of a statement declares some of its identities, in the same order. -/
theorem idsAll_simplify_sublist (s : Stmt) : (idsAll s.simplify).Sublist s.ids := by
  induction s using Stmt.induction with
  | step s ih =>
    have hbody : ∀ body ∈ s.bodies, (idsAll (simplifyAll body)).Sublist (idsAll body) := by
      intro body hb
      refine idsAll_simplifyAll_sublist fun t ht => ih t ?_
      rw [inner_eq_flatten_bodies]
      exact List.mem_flatten.mpr ⟨body, hb, ht⟩
    rcases s.simplify_cases with heq | ⟨-, arm, harm, heq⟩ | ⟨-, heq⟩
    · rw [heq, idsAll, idsAll, List.append_nil, ids_eq, ids_eq, bodies_rebuild, ownIds,
        declared?_rebuild, locals_rebuild, ← ownIds, List.flatMap_map]
      exact (List.Sublist.refl _).append (.flatMap_right _ hbody)
    · rw [heq, ids_eq]
      refine (hbody arm harm).trans ((List.sublist_flatten_of_mem ?_).trans
        (List.sublist_append_right _ _))
      exact List.mem_map.mpr ⟨arm, harm, rfl⟩
    · rw [heq]
      exact List.nil_sublist _

end Stmt

namespace Program

/-- The identities that a program declares. -/
def ids (p : Program) : List Nat := Stmt.idsAll p.statements

theorem ids_simplify_sublist (p : Program) : p.simplify.ids.Sublist p.ids :=
  Stmt.idsAll_simplifyAll_sublist fun s _ => s.idsAll_simplify_sublist

/-- Simplification drops identities, and does nothing else to them. -/
theorem ids_simplifyTimes_sublist (p : Program) (n : Nat) :
    (p.simplifyTimes n).ids.Sublist p.ids := by
  induction n with
  | zero => exact List.Sublist.refl _
  | succ n ih => exact (p.simplifyTimes n).ids_simplify_sublist.trans ih

end Program

/-! ## Uses of variables and functions -/

namespace Expr

/-- Whether the expression is a variable or a function. -/
def isName : Expr → Bool
  | .variable _ | .function _ => true
  | _ => false

/-- If the expression is a variable or a function, it is one of the library, or one that is declared
at the place. -/
def InScope (lib : Library) (d : Site) : Expr → Prop
  | .variable v => (∃ name, (name, .variable v) ∈ lib.entries) ∨ .variable v ∈ d.visible
  | .function f => (∃ name, (name, .function f) ∈ lib.entries) ∨ .function f ∈ d.visible
  | _ => True

variable {lib : Library} {d d' : Site} {e : Expr} {P : Expr → Prop}

theorem inScope_of_isName_eq_false (h : e.isName = false) : e.InScope lib d := by
  cases e with
  | «variable» | function => cases h
  | _ => exact trivial

theorem InScope.mono (h : e.InScope lib d) (hd : ∀ x ∈ d.visible, x ∈ d'.visible) :
    e.InScope lib d' := by
  cases e with
  | «variable» | function => exact Or.imp_right (hd _) h
  | _ => exact trivial

/-- Simplification puts literals, operators and parts of an expression in the place of others, but
no variable and no function. -/
theorem simplify_everywhere (hP : ∀ e : Expr, e.isName = false → P e) (h : e.Everywhere P) :
    e.simplify.Everywhere P := by
  refine everywhere_simplify (fun e he => ?_) (fun _ => hP _ rfl) (fun _ _ _ => hP _ rfl) h
  cases e with
  | «variable» | function => exact he.here
  | _ => exact hP _ rfl

end Expr

end Typed

namespace Check

open Syntax
open Typed (Site)

variable {lib : Library} {types : TypeTable} {s s' : State} {d : Site}

/-! ## Checking -/

/-- The numbers from the first one on, up to the last one. -/
def Numbers (n : Nat) (ids : List Nat) (n' : Nat) : Prop :=
  ∃ k, ids = List.range' n k ∧ n' = n + k

namespace Numbers

variable {n m n' : Nat} {is js : List Nat}

theorem nil (n : Nat) : Numbers n [] n := ⟨0, rfl, rfl⟩

theorem append (h : Numbers n is m) (h' : Numbers m js n') : Numbers n (is ++ js) n' := by
  obtain ⟨k, rfl, rfl⟩ := h
  obtain ⟨l, rfl, rfl⟩ := h'
  exact ⟨k + l, List.range'_append_1, Nat.add_assoc n k l⟩

theorem cons (h : Numbers (n + 1) is n') : Numbers n (n :: is) n' := by
  have hone : Numbers n [n] (n + 1) := ⟨1, rfl, rfl⟩
  exact hone.append h

end Numbers

theorem parameters_ids : ∀ {bs : List Binding} {ts : List Ty} {s s' : State} {vs : List Variable},
    parameters bs ts s = .ok vs s' → Numbers s.nextId (vs.map (·.id)) s'.nextId
  | b :: bs, t :: ts, s, s', vs, h => by
    simp only [parameters, run_bind_ok, run_pure_ok] at h
    obtain ⟨v, _, hv, vs, _, hvs, rfl, rfl⟩ := h
    obtain ⟨rfl, -, rfl⟩ := declareVariable_eq hv
    exact (parameters_ids hvs).cons
  | [], _, s, s', vs, h | _ :: _, [], s, s', vs, h => by
    simp only [parameters, run_pure_ok] at h
    obtain ⟨rfl, rfl⟩ := h
    exact .nil s.nextId

/-- The identities that are declared in a piece. -/
def Piece.ids : Piece → List Nat
  | .stmt _ t => t.ids
  | .stmts _ ts => Typed.Stmt.idsAll ts
  | .alternative _ no => Typed.Stmt.idsAll (no.getD [])

theorem ids_typedBranch (e : Typed.Expr) (yes : List Typed.Stmt) (no : Option (List Typed.Stmt)) :
    (typedBranch e yes no).ids = Typed.Stmt.idsAll yes ++ Typed.Stmt.idsAll (no.getD []) := by
  cases no <;> simp [typedBranch, Typed.Stmt.ids, Typed.Stmt.idsAll]

/-- **Identities are handed out one after the other.** -/
theorem Checks.ids {o : Piece} (h : Checks s o s') : Numbers s.nextId o.ids s'.nextId := by
  induction h with
  | declare _ hv _ =>
    subst hv
    exact (Numbers.nil _).cons
  | function _ hf _ hparams _ ih =>
    subst hf
    exact ((parameters_ids hparams).append ih).cons
  | branch _ _ _ _ hyes hno =>
    rw [Piece.ids, ids_typedBranch]
    exact hyes.append hno
  | whileLoop _ _ _ ih | repeatLoop _ _ _ ih | otherwise _ ih => exact ih
  | rangeLoop _ _ _ _ hv _ ih | eachLoop _ _ hv _ ih =>
    subst hv
    exact ih.cons
  | elseIf _ ih => simpa [Piece.ids, Typed.Stmt.idsAll] using ih
  | cons _ _ hhead htail => exact hhead.append htail
  | _ => exact .nil _

/-- What is found in a state that agrees with a place is in scope there. -/
theorem Agrees.inScope (h : Agrees lib types s d) {e : Typed.Expr}
    (he : e.Named s.env.scopes) : e.InScope lib d := by
  have hfound : ∀ {name x}, s.env.scopes.find? name = some x →
      (∃ name, (name, x) ∈ lib.entries) ∨ x ∈ d.visible := by
    intro name x hx
    rw [h.lookup] at hx
    exact (Site.mem_of_lookup hx).imp_left fun hlib => ⟨name, hlib⟩
  cases e with
  | «variable» | function =>
    obtain ⟨name, hname⟩ := he
    exact hfound hname
  | _ => exact trivial

/-- **Each identity is declared once, and every use lies in the scope of its declaration**, after
any number of passes. The identities are none of the library's. -/
theorem scoped_simplifyTimes {b : Block} {p : Typed.Program} (h : program lib b = .ok p) (n : Nat) :
    (p.simplifyTimes n).ids.Nodup ∧ (∀ i ∈ (p.simplifyTimes n).ids, lib.nextId ≤ i) ∧
      ∀ d t, (p.simplifyTimes n).At d t → ∀ e ∈ t.exprs, e.Everywhere (·.InScope lib d) := by
  obtain ⟨s, hs, -⟩ := checks_of_program h
  obtain ⟨k, hids, -⟩ : Numbers lib.nextId p.ids s.nextId := hs.ids
  have hsub := p.ids_simplifyTimes_sublist n
  refine ⟨?_, fun i hi => ?_, ?_⟩
  · exact (hids ▸ List.nodup_range').sublist hsub
  · have hmem := hsub.subset hi
    rw [hids, List.mem_range'_1] at hmem
    exact hmem.1
  · refine Typed.Program.forall_at_simplifyTimes (fun {d d' t} hd ht e he => ?_)
      (fun d t ht e he => ?_) n
    · rw [Typed.Stmt.exprs_rebuild] at he
      obtain ⟨e₀, he₀, rfl⟩ := List.mem_map.mp he
      refine Typed.Expr.simplify_everywhere (fun _ => Typed.Expr.inScope_of_isName_eq_false) ?_
      exact (ht e₀ he₀).imp fun _ hin => hin.mono hd.visible
    · obtain ⟨a, htwin⟩ := exists_twin h ht
      obtain ⟨s₁, s₂, hchecks, -, hagree⟩ := checks_of_twin h htwin
      obtain ⟨a, ha⟩ := hchecks.exprs e he
      exact (expr_checked s₁.env ha).imp fun _ hsees => hagree.inScope hsees.named

namespace Sample

/-- `let n = 3; if true { let m = n; n = m; }` -/
def lifting : Block :=
  let s : Span := default
  .mk [
    .declare "n" false false (.int 3 s) s,
    .branch (.bool true s)
      (.mk [
        .declare "m" false false (.symbol "n" s) s,
        .assign (.symbol "n" s) (.symbol "m" s) false s] s) .nothing s] s

/-- The outer variable of `lifting`. -/
def kept : Variable := ⟨0, "n", false, .int⟩

/-- The variable that is declared in the branch. -/
def lifted : Variable := ⟨1, "m", false, .int⟩

/-- `lifting` once it is checked. -/
def checkedLifting : Typed.Program :=
  ⟨[.declare kept false (.int 3),
    .shortBranch (.bool true)
      [.declare lifted false (.variable kept),
        .assign (.variable kept) (.variable lifted) false]], .empty⟩

end Sample

/-- The declaration in the branch comes to stand in the list around it, before its use. -/
theorem scoped_simplifyTimes_lifting :
    program .empty Sample.lifting = .ok Sample.checkedLifting ∧
      (Sample.checkedLifting.simplifyTimes 1).ids.Nodup ∧
      ∃ d, (Sample.checkedLifting.simplifyTimes 1).At d
          (.assign (.variable Sample.kept) (.variable Sample.lifted) false) ∧ d.around = [] ∧
        (Typed.Expr.variable Sample.lifted).InScope .empty d := by
  have hp : program .empty Sample.lifting = .ok Sample.checkedLifting := by cbv
  obtain ⟨hids, -, huses⟩ := scoped_simplifyTimes hp 1
  have hat : (Sample.checkedLifting.simplifyTimes 1).At
      ((Site.start.past [.declare Sample.kept false (.int 3)]).past
        [.declare Sample.lifted false (.variable Sample.kept)])
      (.assign (.variable Sample.kept) (.variable Sample.lifted) false) := .later (.later .here)
  exact ⟨hp, hids, _, hat, rfl, (huses _ _ hat _ (by simp [Typed.Stmt.exprs])).here⟩

end Check

end Quill
