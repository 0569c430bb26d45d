import Quill.Proofs.Typing
import Quill.Proofs.Verdict

/-!
# Checking does not depend on spelling

A program and a library are checked, and so are both with all their names changed by an injective
map. Nothing but the spelling of names differs between the two typed programs, or between the two
faults.

Results:
* **`Check.program_rename`**: what becomes of the renamed program.
-/

namespace Quill.Check

open Syntax

variable {r : String → String}

/-- **Checking does not depend on spelling.** Where a library and a program are renamed by one
injective map, the program is accepted exactly where it was, as the renamed typed program: types,
numbers of structs and identities stay. Otherwise both have a fault of one kind at one place. -/
theorem program_rename (hr : Function.Injective r) (lib : Library) (b : Block) :
    (∃ p, program lib b = .ok p ∧ program (lib.rename r) (b.rename r) = .ok (p.rename r)) ∨
      ∃ d e, program lib b = .error d ∧ program (lib.rename r) (b.rename r) = .error e ∧
        d.cause.name = e.cause.name ∧ d.position = e.position := by
  have hfollows := follows_program hr lib (Stmt.allAlike_self b.body)
  generalize program lib b = x at hfollows
  generalize program (lib.rename r) (b.rename r) = y at hfollows
  cases hfollows with
  | ok p => exact .inl ⟨p, rfl, rfl⟩
  | fault hplace hcause => exact .inr ⟨_, _, rfl, rfl, hcause.name, hplace⟩

/-- The names `c` and `Cell` for each other. -/
def Sample.exchange (name : String) : String :=
  if name = "c" then "Cell" else if name = "Cell" then "c" else name

/-- A struct and a variable whose names are exchanged, while the field keeps its name. -/
theorem program_rename_exchange :
    Function.Injective Sample.exchange ∧
      program Sample.integers Sample.reading = .ok Sample.checkedReading ∧
      program (Sample.integers.rename Sample.exchange) (Sample.reading.rename Sample.exchange) =
        .ok (Sample.checkedReading.rename Sample.exchange) := by
  have hr : Function.Injective Sample.exchange := by
    intro a b h
    unfold Sample.exchange at h
    split_ifs at h <;> simp_all
  have hp : program Sample.integers Sample.reading = .ok Sample.checkedReading := by cbv
  refine ⟨hr, hp, ?_⟩
  obtain ⟨p, hp', hrenamed⟩ | ⟨d, _, hd, -⟩ := program_rename hr Sample.integers Sample.reading
  · cases hp.symm.trans hp'
    exact hrenamed
  · cases hp.symm.trans hd

end Quill.Check
