import Quill.Proofs.Sameness

/-!
# Types that fit through a third

`Ty.StepFits R a b` states the ways in which a type fits another because its parts do, as `R` says
of them: functions, sums and arrays. Assignability is its fixed point, with two ways more: a type
fits `any`, and itself (`assignable_iff`).

Fitting one type, which fits another, does not make a type fit the other. Everything fits `any`,
and `any` fits a sum with `any` among its alternatives; but a sum with more alternatives does not
fit that one. `any` is all there is to it: through a type that does not mention it, fits compose.

Results:
* `assignable_iff`: when a type fits another.
* **`assignable_trans`**: through a type without `any`, fits compose.
* `fits_preorder`: among the types without `any`, assignability is a preorder.
-/

namespace Quill.Ty

/-! ## When a type fits another -/

/-- The first type fits the second because parts of it fit parts of the other. -/
def StepFits (R : Ty → Ty → Prop) : Ty → Ty → Prop
  | .function ps r, .function qs s => R r s ∧ List.Forall₂ R qs ps
  | .sum as, .sum bs => as.length ≤ bs.length ∧ ∀ a ∈ as, ∃ b ∈ bs, R a b
  | a, .sum bs => ∃ b ∈ bs, R a b
  | .array a, .array b => R a b
  | _, _ => False

/-- A value of the first type may be put where the second is wanted. -/
abbrev Fits (a b : Ty) : Prop := a.assignable b = true

theorem someAssignable_iff {a : Ty} {bs : List Ty} :
    someAssignable a bs = true ↔ ∃ b ∈ bs, a.Fits b := by
  induction bs with
  | nil => simp [someAssignable]
  | cons b bs ih => simp [someAssignable, ih]

theorem allAssignable_iff {as bs : List Ty} :
    allAssignable as bs = true ↔ ∀ a ∈ as, ∃ b ∈ bs, a.Fits b := by
  induction as with
  | nil => simp [allAssignable]
  | cons a as ih => simp [allAssignable, ih, someAssignable_iff]

theorem assignableZip_iff : ∀ {as bs : List Ty}, bs.length = as.length →
    (assignableZip as bs = true ↔ List.Forall₂ Fits as bs)
  | [], [], _ => by simp [assignableZip]
  | [], _ :: _, hlen => absurd hlen (by simp)
  | _ :: _, [], hlen => absurd hlen (by simp)
  | a :: as, b :: bs, hlen => by
    have hlen : bs.length = as.length := by simpa using hlen
    simp [assignableZip, assignableZip_iff hlen]

variable {a b c : Ty}

/-- **When a type fits another.** -/
theorem assignable_iff : a.Fits b ↔ b = .any ∨ a = b ∨ a.StepFits Fits b := by
  unfold Fits
  rw [assignable.eq_def]
  simp only [Bool.or_eq_true, decide_eq_true_eq, equivalent_iff, or_assoc]
  refine or_congr_right (or_congr_right ?_)
  cases a <;> cases b
  case function.function ps r qs s =>
    simp only [StepFits, Bool.and_eq_true, decide_eq_true_eq, and_assoc]
    refine and_congr_right fun _ => ⟨fun h => (assignableZip_iff h.1).mp h.2, ?_⟩
    intro hall
    have hlen := hall.length_eq.symm
    exact ⟨hlen, (assignableZip_iff hlen).mpr hall⟩
  case sum.sum as bs => simp [StepFits, allAssignable_iff]
  all_goals simp [StepFits, someAssignable_iff]

theorem fits_refl (a : Ty) : a.Fits a := assignable_iff.mpr (.inr (.inl rfl))

theorem fits_any (a : Ty) : a.Fits .any := assignable_iff.mpr (.inl rfl)

/-- Whether the type is a sum. -/
def isSum : Ty → Bool
  | .sum _ => true
  | _ => false

/-- What is no sum fits a sum if and only if it fits an alternative. -/
theorem stepFits_sum_iff (ha : a.isSum = false) {R : Ty → Ty → Prop} {bs : List Ty} :
    a.StepFits R (.sum bs) ↔ ∃ b ∈ bs, R a b := by
  cases a with
  | sum _ => cases ha
  | _ => rfl

/-- Only functions fit a function: those that give something that fits, and take what it takes. -/
theorem exists_function_of_fits {qs : List Ty} {s : Ty} (h : a.Fits (.function qs s)) :
    ∃ ps r, a = .function ps r ∧ List.Forall₂ Fits qs ps := by
  rcases assignable_iff.mp h with hany | rfl | hstep
  · cases hany
  · exact ⟨qs, s, rfl, List.forall₂_same.mpr fun t _ => fits_refl t⟩
  · cases a with
    | function ps r => exact ⟨ps, r, rfl, hstep.2⟩
    | _ => cases hstep

/-! ## Types without `any` -/

mutual

/-- Whether `any` occurs in the type. -/
def hasAny : Ty → Bool
  | .basic b => b = .any
  | .struct _ => false
  | .array t => t.hasAny
  | .function ps r => hasAnyIn ps || r.hasAny
  | .sum ts => hasAnyIn ts

/-- Whether `any` occurs in one of the types. -/
def hasAnyIn : List Ty → Bool
  | [] => false
  | t :: ts => t.hasAny || hasAnyIn ts

end

/-- The type does not mention `any`. -/
abbrev AnyFree (t : Ty) : Prop := t.hasAny = false

theorem hasAnyIn_eq_false_iff {ts : List Ty} : hasAnyIn ts = false ↔ ∀ t ∈ ts, t.AnyFree := by
  induction ts with
  | nil => simp [hasAnyIn]
  | cons t ts ih => simp [hasAnyIn, ih]

theorem AnyFree.params {ps : List Ty} {r : Ty} (h : (function ps r).AnyFree) :
    ∀ t ∈ ps, t.AnyFree := by
  simp only [AnyFree, hasAny, Bool.or_eq_false_iff] at h
  exact hasAnyIn_eq_false_iff.mp h.1

theorem AnyFree.result {ps : List Ty} {r : Ty} (h : (function ps r).AnyFree) : r.AnyFree := by
  simp only [AnyFree, hasAny, Bool.or_eq_false_iff] at h
  exact h.2

theorem AnyFree.alternatives {ts : List Ty} (h : (sum ts).AnyFree) : ∀ t ∈ ts, t.AnyFree := by
  simp only [AnyFree, hasAny] at h
  exact hasAnyIn_eq_false_iff.mp h

/-! ## Fits compose -/

/-- Three lists, of which members at one place are related in two steps. -/
theorem forall₂_trans {α β γ : Type} {R : α → β → Prop} {S : β → γ → Prop} {T : α → γ → Prop}
    {as : List α} {bs : List β} {cs : List γ}
    (h : ∀ a ∈ as, ∀ b ∈ bs, ∀ c ∈ cs, R a b → S b c → T a c) (hab : List.Forall₂ R as bs)
    (hbc : List.Forall₂ S bs cs) : List.Forall₂ T as cs := by
  induction hab generalizing cs with
  | nil => cases hbc; exact .nil
  | cons hhead htail ih =>
    cases hbc with
    | cons hhead' htail' =>
      refine .cons (h _ (by simp) _ (by simp) _ (by simp) hhead hhead') (ih ?_ htail')
      intro a ha b hb c hc
      exact h a (List.mem_cons_of_mem _ ha) b (List.mem_cons_of_mem _ hb) c
        (List.mem_cons_of_mem _ hc)

/-- Fits compose through types without `any`, as long as the three types are small. -/
def ComposeBelow (n : Nat) : Prop :=
  ∀ a b c : Ty, sizeOf a + sizeOf b + sizeOf c < n → b.AnyFree → a.Fits b → b.Fits c → a.Fits c

/-- Types that fit because their parts do, if fits of the parts compose. Only sums can be on both
sides of what is no sum: elsewhere the three types have one shape. -/
theorem StepFits.trans (ih : ComposeBelow (sizeOf a + sizeOf b + sizeOf c)) (hb : b.AnyFree)
    (hab : a.StepFits Fits b) (hbc : b.StepFits Fits c) : a.StepFits Fits c := by
  have hfits : a.Fits b := assignable_iff.mpr (.inr (.inr hab))
  have hmem : ∀ {t : Ty} {ts : List Ty}, t ∈ ts → sizeOf t < sizeOf (sum ts) := by
    intro t ts ht
    have hlt := List.sizeOf_lt_of_mem ht
    simp only [sum.sizeOf_spec]
    omega
  cases b with
  | basic | struct => cases a <;> cases hab
  | array b =>
    cases a with
    | array a =>
      cases c with
      | array c =>
        refine ih a b c ?_ hb hab hbc
        simp only [array.sizeOf_spec]
        omega
      | sum cs =>
        obtain ⟨c, hc, hbc⟩ := hbc
        exact ⟨c, hc, ih _ _ c (by have := hmem hc; omega) hb hfits hbc⟩
      | _ => cases hbc
    | _ => cases hab
  | function qs s =>
    cases a with
    | function ps r =>
      cases c with
      | function ts u =>
        refine ⟨ih r s u ?_ hb.result hab.1 hbc.1, forall₂_trans ?_ hbc.2 hab.2⟩
        · simp only [function.sizeOf_spec]
          omega
        · intro t ht q hq p hp
          have htl := List.sizeOf_lt_of_mem ht
          have hql := List.sizeOf_lt_of_mem hq
          have hpl := List.sizeOf_lt_of_mem hp
          refine ih t q p ?_ (hb.params q hq)
          simp only [function.sizeOf_spec]
          omega
      | sum cs =>
        obtain ⟨c, hc, hbc⟩ := hbc
        exact ⟨c, hc, ih _ _ c (by have := hmem hc; omega) hb hfits hbc⟩
      | _ => cases hbc
    | _ => cases hab
  | sum bs =>
    cases c with
    | sum cs =>
      obtain ⟨hlen, hall⟩ := hbc
      by_cases ha : a.isSum = true
      · cases a with
        | sum as =>
          refine ⟨hab.1.trans hlen, fun a hmema => ?_⟩
          obtain ⟨b, hmemb, hab⟩ := hab.2 a hmema
          obtain ⟨c, hmemc, hbc⟩ := hall b hmemb
          refine ⟨c, hmemc, ih a b c ?_ (hb.alternatives b hmemb) hab hbc⟩
          have := hmem hmema
          have := hmem hmemb
          have := hmem hmemc
          omega
        | _ => cases ha
      · have ha : a.isSum = false := Bool.eq_false_of_not_eq_true ha
        obtain ⟨b, hmemb, hab⟩ := (stepFits_sum_iff ha).mp hab
        obtain ⟨c, hmemc, hbc⟩ := hall b hmemb
        refine (stepFits_sum_iff ha).mpr ⟨c, hmemc, ih a b c ?_ (hb.alternatives b hmemb) hab hbc⟩
        have := hmem hmemb
        have := hmem hmemc
        omega
    | _ => cases hbc

theorem composeBelow : ∀ n : Nat, ComposeBelow n
  | 0 => fun _ _ _ hlt => absurd hlt (Nat.not_lt_zero _)
  | n + 1 => by
    intro a b c hlt hb hab hbc
    rcases assignable_iff.mp hab with rfl | rfl | hstep
    · cases hb
    · exact hbc
    rcases assignable_iff.mp hbc with rfl | rfl | hstep'
    · exact fits_any a
    · exact hab
    have ih : ComposeBelow (sizeOf a + sizeOf b + sizeOf c) := fun a' b' c' hlt' =>
      composeBelow n a' b' c' (by omega)
    exact assignable_iff.mpr (.inr (.inr (hstep.trans ih hb hstep')))

/-- **Through a type without `any`, fits compose.** -/
theorem assignable_trans (hb : b.AnyFree) (hab : a.Fits b) (hbc : b.Fits c) : a.Fits c :=
  composeBelow _ a b c (Nat.lt_succ_self _) hb hab hbc

theorem isPreorder_fits : IsPreorder {t : Ty // t.AnyFree} (fun a b => a.1.Fits b.1) where
  refl a := fits_refl a.1
  trans _ b _ := assignable_trans b.2

/-- A sum of three types fits `any`, and `any` fits the optional of `any`; but the sum has one
alternative too many to fit that. -/
theorem exists_not_fits_through_any : ∃ a c : Ty, a.Fits .any ∧ any.Fits c ∧ ¬ a.Fits c := by
  refine ⟨.sum [int, bool, string], optional any, fits_any _, ?_, ?_⟩
  · decide +kernel
  · decide +kernel

/-- **Away from `any`, assignability is a preorder.** Fits compose through every type that does not
mention `any`; through `any` itself they do not. -/
theorem fits_preorder :
    (∀ a b c : Ty, b.AnyFree → a.Fits b → b.Fits c → a.Fits c) ∧
      IsPreorder {t : Ty // t.AnyFree} (fun a b => a.1.Fits b.1) ∧
      ∃ a c : Ty, a.Fits .any ∧ any.Fits c ∧ ¬ a.Fits c :=
  ⟨fun _ _ _ => assignable_trans, isPreorder_fits, exists_not_fits_through_any⟩

/-- A function that takes three alternatives and gives an integer fits one that takes an integer
and gives one of three alternatives, by way of one that takes two and gives two. -/
theorem fits_preorder_function :
    (function [.sum [int, bool]] (.sum [int, string])).AnyFree ∧
      (function [.sum [int, bool, void]] int).Fits (function [int] (.sum [int, string, bool])) := by
  have hfree : (function [.sum [int, bool]] (.sum [int, string])).AnyFree := by decide +kernel
  refine ⟨hfree, fits_preorder.1 _ _ _ hfree ?_ ?_⟩
  · decide +kernel
  · decide +kernel

end Quill.Ty
