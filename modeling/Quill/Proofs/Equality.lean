import Quill.Proofs.Fitting
import Quill.Proofs.Passing

/-!
# The same type and an equal one

Two ways to compare types are in use: `equivalent`, which goes down both types and puts lists side
by side after a look at their lengths, and equality, which is decided constructor by constructor.
They agree on all types, sums that have an alternative twice included.

So sameness is an equivalence, and each constructor preserves and reflects it. Wherever a rule asks
for equality with a fixed type, asking for sameness would decide the same (`TestsAgree`).

Results:
* `equivalent_eq_decide`: the two comparisons agree.
* `same_function_iff`, `same_sum_iff`: the constructors with lists.
* **`same_congruence`**: sameness is equality, and with it an equivalence and a congruence.
-/

namespace Quill.Ty

/-- The types are the same. -/
abbrev Same (a b : Ty) : Prop := a.equivalent b = true

variable {a b r s : Ty} {as bs ps qs : List Ty}

/-- **The two comparisons agree.** -/
theorem equivalent_eq_decide (a b : Ty) : a.equivalent b = decide (a = b) := by
  rw [Bool.eq_iff_iff, equivalent_iff, decide_eq_true_eq]

theorem same_equivalence : Equivalence Same where
  refl := equivalent_refl
  symm h := equivalent_iff.mpr (equivalent_iff.mp h).symm
  trans h k := equivalent_iff.mpr ((equivalent_iff.mp h).trans (equivalent_iff.mp k))

/-! ## Constructors -/

theorem forall₂_same_iff : List.Forall₂ Same as bs ↔ as = bs := by
  have hsame : Same = Eq := by
    funext a b
    exact propext equivalent_iff
  rw [hsame, List.forall₂_eq_eq_eq]

theorem same_array_iff : Same (.array a) (.array b) ↔ Same a b := by
  rw [Same, equivalent]

/-- Functions are the same if their results and, place by place, their parameters are. -/
theorem same_function_iff :
    Same (.function ps r) (.function qs s) ↔ List.Forall₂ Same ps qs ∧ Same r s := by
  rw [forall₂_same_iff, Same, Same, equivalent_iff, equivalent_iff, function.injEq]

/-- Sums are the same if their alternatives are, place by place. -/
theorem same_sum_iff : Same (.sum as) (.sum bs) ↔ List.Forall₂ Same as bs := by
  rw [forall₂_same_iff, Same, equivalent_iff, sum.injEq]

/-! ## Tests -/

section

open Check

/-- Wherever a rule asks whether a type equals a certain one, sameness decides it too. -/
structure TestsAgree : Prop where
  /-- What everything fits. -/
  any : ∀ a b : Ty, a.Fits b ↔ Same b .any ∨ Same a b ∨ a.StepFits Fits b
  /-- Which sums are optional types. -/
  void : ∀ base t : Ty,
    (Ty.sum [base, t]).optionalBase? = if t.equivalent .void then some base else none
  /-- Where nothing may be returned. -/
  nothing : ∀ (p : Position) (s : State), (∃ stmt s', giveBack none p s = .ok stmt s') ↔
    ∃ f, s.env.scopes.function = some f ∧ Same f.result .void
  /-- Where something may be. -/
  something : ∀ (e : Syntax.Expr) (p : Position) (s : State),
    (∃ stmt s', giveBack (some e) p s = .ok stmt s') ↔
      ∃ f v, s.env.scopes.function = some f ∧ ¬ Same f.result .void ∧ expr s.env e = .ok v ∧
        v.type.Fits f.result
  /-- What a condition may be. -/
  bool : ∀ (env : Env) (t : Ty) (p : Position),
    env.expectBool t p = .ok () ↔ env.expectSame t .bool p = .ok ()
  /-- What may be counted with. -/
  int : ∀ (env : Env) (t : Ty) (p : Position),
    env.expectInt t p = .ok () ↔ env.expectSame t .int p = .ok ()
  /-- Which structs would hold themselves. -/
  struct : ∀ (table : TypeTable) (id : StructId) (fields : List Field),
    table.define id fields = .error (.recursiveStruct (table.get id).name) ↔
      TypeTable.firstRepeated? (fields.map (·.name)) = none ∧
        ∃ f ∈ fields, Same f.type (.struct id)

theorem optionalBase?_eq (base t : Ty) :
    (Ty.sum [base, t]).optionalBase? = if t.equivalent .void then some base else none := by
  simp only [optionalBase?, equivalent_iff]

theorem expectClass_eq_ok_iff {env : Env} {t c : Ty} {expected : String} {p : Position} :
    env.expectClass t (· = c) expected p = .ok () ↔ env.expectSame t c p = .ok () := by
  unfold Env.expectClass Env.expectSame
  simp only [equivalent_eq_decide]
  split_ifs <;> simp

theorem define_eq_recursiveStruct_iff {table : TypeTable} {id : StructId} {fields : List Field} :
    table.define id fields = .error (.recursiveStruct (table.get id).name) ↔
      TypeTable.firstRepeated? (fields.map (·.name)) = none ∧
        ∃ f ∈ fields, Same f.type (.struct id) := by
  have hany : (fields.any fun f => f.type = .struct id) = true ↔
      ∃ f ∈ fields, Same f.type (.struct id) := by
    simp only [List.any_eq_true, decide_eq_true_eq, Same, equivalent_iff]
  unfold TypeTable.define
  cases TypeTable.firstRepeated? (fields.map (·.name)) with
  | some field => simp
  | none =>
    rw [← hany]
    split_ifs with hrecursive <;> simp [hrecursive]

theorem giveBack_none_iff {p : Position} {s : State} :
    (∃ stmt s', giveBack none p s = .ok stmt s') ↔
      ∃ f, s.env.scopes.function = some f ∧ Same f.result .void := by
  simp only [Same, equivalent_iff]
  constructor
  · rintro ⟨stmt, s', h⟩
    obtain ⟨f, hf, -, ⟨-, hvoid, -⟩ | ⟨e, v, hvalue, -⟩⟩ := giveBack_eq h
    · exact ⟨f, hf, hvoid⟩
    · cases hvalue
  · rintro ⟨f, hf, hvoid⟩
    refine ⟨.giveBack none, s, run_ask ?_⟩
    simp only [hf, if_pos hvoid]

theorem giveBack_some_iff {e : Syntax.Expr} {p : Position} {s : State} :
    (∃ stmt s', giveBack (some e) p s = .ok stmt s') ↔
      ∃ f v, s.env.scopes.function = some f ∧ ¬ Same f.result .void ∧ expr s.env e = .ok v ∧
        v.type.Fits f.result := by
  simp only [Same, equivalent_iff]
  constructor
  · rintro ⟨stmt, s', h⟩
    obtain ⟨f, hf, -, ⟨hvalue, -⟩ | ⟨e, v, hvalue, hvoid, hv, hfits, -⟩⟩ := giveBack_eq h
    · cases hvalue
    · cases hvalue
      exact ⟨f, v, hf, hvoid, hv, hfits⟩
  · rintro ⟨f, v, hf, hvoid, hv, hfits⟩
    refine ⟨.giveBack (some v), s, run_ask ?_⟩
    simp only [hf, if_neg hvoid]
    exact bind_eq_ok.mpr ⟨v, hv, bind_eq_ok.mpr ⟨(), expectAssignable_of_fits hfits, rfl⟩⟩

theorem testsAgree : TestsAgree where
  any a b := by
    rw [assignable_iff, Same, Same, equivalent_iff, equivalent_iff]
  void := optionalBase?_eq
  nothing _ _ := giveBack_none_iff
  something _ _ _ := giveBack_some_iff
  bool _ _ _ := expectClass_eq_ok_iff
  int _ _ _ := expectClass_eq_ok_iff
  struct _ _ _ := define_eq_recursiveStruct_iff

end

/-- **Sameness is equality**, and so an equivalence that every constructor preserves and reflects;
no test for equality could be told from one for sameness. -/
theorem same_congruence :
    (∀ a b : Ty, a.equivalent b = decide (a = b)) ∧ Equivalence Same ∧
      (∀ a b : Ty, Same (.array a) (.array b) ↔ Same a b) ∧
      (∀ (ps qs : List Ty) (r s : Ty),
        Same (.function ps r) (.function qs s) ↔ List.Forall₂ Same ps qs ∧ Same r s) ∧
      (∀ as bs : List Ty, Same (.sum as) (.sum bs) ↔ List.Forall₂ Same as bs) ∧ TestsAgree :=
  ⟨equivalent_eq_decide, same_equivalence, fun _ _ => same_array_iff,
    fun _ _ _ _ => same_function_iff, fun _ _ => same_sum_iff, testsAgree⟩

end Quill.Ty
