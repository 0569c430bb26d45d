import Quill.Proofs.Agreement
import Quill.Proofs.Remains

/-!
# Where statements may stand, and what they may change

A `break` has a loop around it and a `return` a function, with no function between the two. A
`return` has a value exactly if the function gives one. What is assigned to or counted is a place: a
variable that may change, an element of an array, or a field that is reached without `?.`. An
expression that stands alone is a call.

The checker sees to the first three when it meets the statement, by what it knows of the scopes
around; the parser sees to the last. Simplification takes branches away from around statements and
puts simplified expressions in the place of others. It keeps loops and functions around what is
left, and never makes of a place or of a call something else.

Results:
* `disciplined_of_checks`: what the checker sees to.
* `Disciplined.rebuild`: what one pass keeps.
* **`Check.disciplined_simplifyTimes`**: for every program that is read and checked, after any
  number of passes.
-/

namespace Quill

namespace Typed

/-- A place that may be changed. -/
def Expr.IsPlace : Expr → Prop
  | .variable v => v.readOnly = false
  | .subscript _ _ _ | .member _ _ false _ => True
  | _ => False

/-- A call of a function, or the making of a struct. -/
def Expr.IsCall : Expr → Prop
  | .call _ _ _ | .construct _ _ => True
  | _ => False

/-- What is around the statement allows it, and it changes places and performs calls only. -/
def Stmt.Disciplined (d : Site) : Stmt → Prop
  | .breakLoop => d.InLoop
  | .giveBack (some _) => ∃ f, d.function? = some f ∧ f.result ≠ .void
  | .giveBack none => ∃ f, d.function? = some f ∧ f.result = .void
  | .assign target _ _ | .increment target | .decrement target => target.IsPlace
  | .perform call => call.IsCall
  | _ => True

/-! ## Simplification -/

theorem Expr.IsPlace.simplify {e : Expr} (h : e.IsPlace) : e.simplify.IsPlace := by
  cases e with
  | «variable» v => exact h
  | subscript items index t => exact trivial
  | member object field chained t =>
    cases chained with
    | false => exact trivial
    | true => cases h
  | _ => cases h

theorem Expr.IsCall.simplify {e : Expr} (h : e.IsCall) : e.simplify.IsCall := by
  cases e with
  | call callee args t => exact trivial
  | construct id args => exact trivial
  | _ => cases h

/-- A statement that is rebuilt and moved to a site that admits it keeps the discipline. -/
theorem Stmt.Disciplined.rebuild {d d' : Site} {s : Stmt} (hd : d'.Admits d)
    (h : s.Disciplined d) : s.rebuild.Disciplined d' := by
  cases s with
  | breakLoop => exact hd.inLoop h
  | giveBack value =>
    cases value with
    | none | some e =>
      obtain ⟨f, hf, hvoid⟩ := h
      exact ⟨f, hd.function?.trans hf, hvoid⟩
  | assign target source byReference => exact Expr.IsPlace.simplify h
  | increment target => exact Expr.IsPlace.simplify h
  | decrement target => exact Expr.IsPlace.simplify h
  | perform call => exact Expr.IsCall.simplify h
  | _ => exact trivial

end Typed

namespace Check

open Syntax
open Typed (Site)

variable {lib : Library} {types : TypeTable} {s s' : State} {c d : Site} {a : Stmt}
  {t : Typed.Stmt}

/-! ## Checking -/

theorem isPlace_of_targetFault? {place : Typed.Expr} (h : targetFault? place = none) :
    place.IsPlace := by
  unfold targetFault? at h
  split at h
  · split at h
    · cases h
    · rename_i hconst
      exact Bool.eq_false_of_not_eq_true hconst
  · cases h
  · exact trivial
  · exact trivial
  · cases h

/-- A checked call is a call, or makes a struct. -/
theorem isCall_of_expr {env : Env} {e : Expr} {c : Typed.Expr} (he : Parse.isCall e = true)
    (h : expr env e = .ok c) : c.IsCall := by
  cases e with
  | call callee args span =>
    rw [expr, bind_eq_ok] at h
    obtain ⟨made, -, h⟩ := h
    cases made with
    | some made =>
      simp only [bind_eq_ok, pure_eq_ok] at h
      obtain ⟨id, -, _, -, args, -, rfl⟩ := h
      exact trivial
    | none =>
      simp only [bind_eq_ok, pure_eq_ok] at h
      obtain ⟨callee, -, ⟨params, result⟩, -, _, -, args, -, rfl⟩ := h
      exact trivial
  | _ => cases he

/-- **A statement that is checked where it stands keeps the discipline**, if it performs a call when
it performs an expression. -/
theorem disciplined_of_checks (h : Checks s (.stmt a t) s') (hs : Agrees lib types s d)
    (ha : a.PerformsCall) : t.Disciplined d := by
  cases h with
  | assign _ hplace _ _ => exact isPlace_of_targetFault? hplace
  | increment _ hplace _ => exact isPlace_of_targetFault? hplace
  | decrement _ hplace _ => exact isPlace_of_targetFault? hplace
  | breakLoop hloop => exact hs.inLoop.mp hloop
  | leave hf hvoid => exact ⟨_, hs.function.symm.trans hf, hvoid⟩
  | giveBack hf hvoid _ _ => exact ⟨_, hs.function.symm.trans hf, hvoid⟩
  | perform he => exact isCall_of_expr ha he
  | @branch _ _ _ _ _ _ _ e yes no _ _ _ _ => cases no <;> exact trivial
  | _ => exact trivial

/-- What holds everywhere in the statements of a list holds of every twin in it. -/
theorem Twin.of_everywhere {Q : Stmt → Prop} {as : List Stmt} {ts : List Typed.Stmt}
    (h : Twin c as ts d a t) (has : ∀ b ∈ as, b.Everywhere Q) : Q a := by
  induction h with
  | here =>
    obtain ⟨hhere, -⟩ := has _ List.mem_cons_self
    exact hhere
  | later _ ih => exact ih fun b hb => has b (List.mem_cons_of_mem _ hb)
  | inside hmem _ ih =>
    obtain ⟨-, hin⟩ := has _ List.mem_cons_self
    exact ih (hin _ (List.of_mem_zip hmem).1)

/-- **The discipline holds of every program that is read and checked, after any number of passes**:
every statement of it stands where it may, changes places only, and performs calls only. -/
theorem disciplined_simplifyTimes {source file : String} {p : Typed.Program}
    (h : checkSource lib source file = .ok p) (n : Nat) :
    ∀ d t, (p.simplifyTimes n).At d t → t.Disciplined d := by
  obtain ⟨b, hparse, hcheck⟩ := bind_eq_ok.mp h
  refine Typed.Program.forall_at_simplifyTimes (fun hd ht => ht.rebuild hd) (fun d t ht => ?_) n
  obtain ⟨a, htwin⟩ := exists_twin hcheck ht
  obtain ⟨s₁, s₂, hchecks, -, hs⟩ := checks_of_twin hcheck htwin
  exact disciplined_of_checks hchecks hs
    (htwin.of_everywhere (Parse.performsCall_of_parseSource hparse))

namespace Sample

/-- A loop that is left in a branch, once it is checked. -/
def escaping : Typed.Program :=
  ⟨[.whileLoop (.bool true) [.shortBranch (.bool true) [.breakLoop]]], .empty⟩

/-- The place of the `break` when the branch around it is gone. -/
def escape : Site := Site.start.into (.whileLoop (.bool true) [.breakLoop])

end Sample

theorem disciplined_simplifyTimes_escaping :
    checkSource .empty "while true{if true{break;}}" "" = .ok Sample.escaping ∧
      (Sample.escaping.simplifyTimes 1).At Sample.escape .breakLoop ∧ Sample.escape.InLoop := by
  have hp : checkSource .empty "while true{if true{break;}}" "" = .ok Sample.escaping := by cbv
  have hat : (Sample.escaping.simplifyTimes 1).At Sample.escape .breakLoop :=
    .inside List.mem_cons_self .here
  exact ⟨hp, hat, disciplined_simplifyTimes hp 1 _ _ hat⟩

end Check

end Quill
