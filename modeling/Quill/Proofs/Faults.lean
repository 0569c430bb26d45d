import Quill.Proofs.Tiling
import Quill.Proofs.Verdict

/-!
# Faults of form and of meaning

Reading a text and building its tree find faults of form only: a text has no token where no rule
matches, and a parser reports tokens that it cannot go on with (`Spends`). Checking a tree finds
faults of meaning only (`Cause.Akin`). So a fault of a text says by its cause whether the text
writes a tree at all, and no fault of meaning, wherever it stands in the text, comes before a fault
of form.

Results:
* `ofForm_of_parseSource`: the way from a text to its tree finds faults of form.
* `Check.ofMeaning_of_program`: checking finds faults of meaning.
* `checkSource_error_iff`: which of the two kinds of fault a text runs into.
-/

namespace Quill

open Syntax

section

variable {source file : String} {d : Diagnostic}

theorem ofForm_of_parse {tokens : List Token} (h : parse tokens file = .error d) : d.OfForm := by
  have hbudget : (Cursor.ofTokens tokens file).weight < (Cursor.ofTokens tokens file).budget :=
    Nat.lt_succ_self _
  have hspends := (Parse.descends_program (c := .twice (Cursor.ofTokens tokens file)) hbudget
    hbudget).spends
  unfold parse Cursor.run at h
  cases hrun : Parse.program .standard (Cursor.ofTokens tokens file).budget
      (Cursor.ofTokens tokens file) with
  | ok b c =>
    rw [hrun] at h
    cases h
  | error f c =>
    rw [hrun] at h hspends
    obtain ⟨-, d, rfl, hform⟩ := hspends
    cases h
    exact hform

/-- Reading a text and building its tree find faults of form. -/
theorem ofForm_of_parseSource (h : parseSource source file = .error d) : d.OfForm := by
  unfold parseSource at h
  cases htokens : tokenize source file with
  | ok tokens =>
    rw [htokens] at h
    exact ofForm_of_parse h
  | error e =>
    rw [htokens] at h
    cases h
    obtain ⟨ts, c, cs, p, -, -, rfl⟩ := Reader.scans_of_error htokens
    rfl

end

theorem Check.ofMeaning_of_program {lib : Library} {b : Block} {d : Diagnostic}
    (h : program lib b = .error d) : d.OfMeaning := by
  have hfollows := follows_program (r := id) Function.injective_id lib
    (Stmt.allAlike_self b.body)
  rw [h] at hfollows
  generalize program (lib.rename id) (b.rename id) = y at hfollows
  cases hfollows with
  | fault _ hcause => exact hcause.ofMeaning

/-- **Faults of form and of meaning do not mix.** Checking a text ends with a fault of form if and
only if parsing it fails, with that very fault. A text that can be parsed has faults of meaning
only. -/
theorem checkSource_error_iff (lib : Library) (source file : String) :
    (∀ d, checkSource lib source file = .error d ∧ d.cause.isSyntactic = true ↔
      parseSource source file = .error d) ∧
    ∀ b d, parseSource source file = .ok b → checkSource lib source file = .error d →
      d.cause.isSyntactic = false := by
  have hmeaning : ∀ b d, parseSource source file = .ok b →
      checkSource lib source file = .error d → d.OfMeaning := by
    intro b d hparse hcheck
    unfold checkSource at hcheck
    rw [hparse] at hcheck
    exact Check.ofMeaning_of_program hcheck
  refine ⟨fun d => ⟨?_, fun hparse => ⟨?_, ofForm_of_parseSource hparse⟩⟩, hmeaning⟩
  · rintro ⟨hcheck, hform⟩
    cases hparse : parseSource source file with
    | ok b =>
      have hnot := hmeaning b d hparse hcheck
      exact absurd (hform.symm.trans hnot) (by decide)
    | error e =>
      unfold checkSource at hcheck
      rw [hparse] at hcheck
      cases hcheck
      rfl
  · unfold checkSource
    rw [hparse]
    rfl

/-- An undeclared name, and behind it a declaration without a value: the fault is one of form. With
the value in place, the undeclared name is the fault. -/
theorem checkSource_error_iff_undeclared :
    parseSource "x(); let y;" "f" = .error ⟨.unexpectedHere ";"
      "expected `=` or `<-` in declaration", ⟨10, 1, 11, "f"⟩⟩ ∧
    checkSource .empty "x(); let y;" "f" = .error ⟨.unexpectedHere ";"
      "expected `=` or `<-` in declaration", ⟨10, 1, 11, "f"⟩⟩ ∧
    checkSource .empty "x(); let y=1;" "f" = .error ⟨.undeclared "x", ⟨0, 1, 1, "f"⟩⟩ ∧
    (Cause.undeclared "x").isSyntactic = false := by
  have hparse : parseSource "x(); let y;" "f" = .error ⟨.unexpectedHere ";"
      "expected `=` or `<-` in declaration", ⟨10, 1, 11, "f"⟩⟩ :=
    eq_error_of_map (f := fun _ => ()) (by decide +kernel)
  have hcheck : checkSource .empty "x(); let y=1;" "f" =
      .error ⟨.undeclared "x", ⟨0, 1, 1, "f"⟩⟩ :=
    eq_error_of_map (f := fun _ => ()) (by decide +kernel)
  obtain ⟨b, hb, -⟩ := exists_of_map_eq_ok (x := parseSource "x(); let y=1;" "f")
    (f := fun _ => ()) (b := ()) (by decide +kernel)
  exact ⟨hparse, (((checkSource_error_iff .empty _ _).1 _).mpr hparse).1, hcheck,
    (checkSource_error_iff .empty _ _).2 b _ hb hcheck⟩

end Quill
