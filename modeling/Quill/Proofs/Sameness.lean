import Mathlib
import Quill.Ty.Basic

/-!
# Types that are the same, and types that fit

`equivalent` compares two types part by part; it holds of a type and itself only
(`equivalent_iff`). Where a basic type other than `any`, a struct or an array is wanted, little
fits: the type itself, and for an array another array. A sum of types has each of them once
(`mem_distinct`), so that it has one alternative only if all of them are the same
(`distinct_eq_singleton_iff`).
-/

namespace Quill.Ty

mutual

/-- Types that are the same are equal. -/
theorem eq_of_equivalent : ∀ {a b : Ty}, a.equivalent b = true → a = b
  | .basic a, .basic b, h => congrArg _ (of_decide_eq_true (by simpa only [equivalent] using h))
  | .struct a, .struct b, h => congrArg _ (of_decide_eq_true (by simpa only [equivalent] using h))
  | .array a, .array b, h => congrArg _ (eq_of_equivalent (by simpa only [equivalent] using h))
  | .function ps r, .function qs s, h => by
    simp only [equivalent, Bool.and_eq_true, decide_eq_true_eq] at h
    rw [eq_of_equivalent h.1.1, eq_of_equivalentZip h.1.2 h.2]
  | .sum as, .sum bs, h => by
    simp only [equivalent, Bool.and_eq_true, decide_eq_true_eq] at h
    rw [eq_of_equivalentZip h.1 h.2]
  | .basic _, .struct _, h | .basic _, .array _, h | .basic _, .function _ _, h
  | .basic _, .sum _, h | .struct _, .basic _, h | .struct _, .array _, h
  | .struct _, .function _ _, h | .struct _, .sum _, h | .array _, .basic _, h
  | .array _, .struct _, h | .array _, .function _ _, h | .array _, .sum _, h
  | .function _ _, .basic _, h | .function _ _, .struct _, h | .function _ _, .array _, h
  | .function _ _, .sum _, h | .sum _, .basic _, h | .sum _, .struct _, h | .sum _, .array _, h
  | .sum _, .function _ _, h => absurd h (by simp [equivalent])

/-- Lists of one length whose members are the same are equal. -/
theorem eq_of_equivalentZip : ∀ {as bs : List Ty}, as.length = bs.length →
    equivalentZip as bs = true → as = bs
  | [], [], _, _ => rfl
  | [], _ :: _, hlen, _ => absurd hlen (by simp)
  | _ :: _, [], hlen, _ => absurd hlen (by simp)
  | a :: as, b :: bs, hlen, h => by
    simp only [equivalentZip, Bool.and_eq_true] at h
    rw [eq_of_equivalent h.1, eq_of_equivalentZip (by simpa using hlen) h.2]

end

mutual

theorem equivalent_refl : ∀ t : Ty, t.equivalent t = true
  | .basic _ | .struct _ => by simp [equivalent]
  | .array t => by simp [equivalent, equivalent_refl t]
  | .function ps r => by simp [equivalent, equivalent_refl r, equivalentZip_refl ps]
  | .sum ts => by simp [equivalent, equivalentZip_refl ts]

theorem equivalentZip_refl : ∀ ts : List Ty, equivalentZip ts ts = true
  | [] => rfl
  | t :: ts => by simp [equivalentZip, equivalent_refl t, equivalentZip_refl ts]

end

variable {a b : Ty}

theorem equivalent_iff : a.equivalent b = true ↔ a = b :=
  ⟨eq_of_equivalent, fun h => h ▸ equivalent_refl a⟩

/-! ## What fits -/

/-- Only itself fits a basic type other than `any`. -/
theorem eq_of_assignable_basic {c : Basic} (hc : c ≠ .any) (h : a.assignable (.basic c) = true) :
    a = .basic c := by
  unfold assignable at h
  simp only [Bool.or_eq_true, decide_eq_true_eq] at h
  rcases h with (h | h) | h
  · exact absurd (Ty.basic.inj h) hc
  · exact eq_of_equivalent h
  · cases a <;> cases h

/-- Only itself fits a struct. -/
theorem eq_of_assignable_struct {id : StructId} (h : a.assignable (.struct id) = true) :
    a = .struct id := by
  unfold assignable at h
  simp only [Bool.or_eq_true, decide_eq_true_eq] at h
  rcases h with (h | h) | h
  · cases h
  · exact eq_of_equivalent h
  · cases a <;> cases h

/-- Only arrays fit an array. -/
theorem isArray_of_assignable_array (h : a.assignable (.array b) = true) : ∃ c, a = .array c := by
  unfold assignable at h
  simp only [Bool.or_eq_true, decide_eq_true_eq] at h
  rcases h with (h | h) | h
  · cases h
  · exact ⟨b, eq_of_equivalent h⟩
  · cases a with
    | array c => exact ⟨c, rfl⟩
    | _ => cases h

/-! ## Sums -/

variable {t : Ty} {ts : List Ty}

/-- Dropping what has been seen loses nothing. -/
theorem mem_foldl_distinct (seen : List Ty) :
    t ∈ ts.foldl (fun seen t => if seen.any (·.equivalent t) then seen else seen ++ [t]) seen ↔
      t ∈ seen ∨ t ∈ ts := by
  induction ts generalizing seen with
  | nil => simp
  | cons u ts ih =>
    rw [List.foldl_cons, ih]
    split_ifs with hseen
    · have hu : u ∈ seen := by simpa [equivalent_iff] using hseen
      simp only [List.mem_cons]
      constructor
      · exact Or.imp_right .inr
      · rintro (h | rfl | h)
        · exact .inl h
        · exact .inl hu
        · exact .inr h
    · simp [or_assoc]

theorem mem_distinct : t ∈ distinct ts ↔ t ∈ ts := (mem_foldl_distinct []).trans (by simp)

/-- What has been seen is dropped. -/
theorem foldl_distinct_of_subset {seen : List Ty} (h : ts ⊆ seen) :
    ts.foldl (fun seen t => if seen.any (·.equivalent t) then seen else seen ++ [t]) seen =
      seen := by
  induction ts with
  | nil => rfl
  | cons u ts ih =>
    have hu : seen.any (·.equivalent u) = true :=
      List.any_eq_true.mpr ⟨u, h List.mem_cons_self, equivalent_refl u⟩
    rw [List.foldl_cons, if_pos hu]
    exact ih (List.subset_of_cons_subset h)

/-- A sum has one alternative if and only if all its types are the same. -/
theorem distinct_eq_singleton_iff : distinct ts = [t] ↔ ts ≠ [] ∧ ∀ u ∈ ts, u = t := by
  constructor
  · intro h
    refine ⟨?_, fun u hu => ?_⟩
    · rintro rfl
      cases h
    · rw [← mem_distinct, h] at hu
      exact List.mem_singleton.mp hu
  · rintro ⟨hne, h⟩
    cases ts with
    | nil => exact absurd rfl hne
    | cons u ts =>
      obtain rfl := h u List.mem_cons_self
      have hts : ts ⊆ [u] := fun v hv => List.mem_singleton.mpr (h v (List.mem_cons_of_mem _ hv))
      exact foldl_distinct_of_subset hts

/-- An optional type is the sum of its base and `void`. -/
theorem eq_sum_of_optionalBase? (h : a.optionalBase? = some b) : a = .sum [b, .void] := by
  unfold optionalBase? at h
  split at h
  · split_ifs at h with hvoid
    rw [Option.some.inj h, hvoid]
  · cases h

end Quill.Ty
