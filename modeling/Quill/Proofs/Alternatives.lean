import Quill.Proofs.Equality
import Quill.Proofs.WellFormed

/-!
# The alternatives of a sum

A sum is made of a list of types in one pass, which keeps a type unless one that it has kept is the
same. What is kept can be said without the pass: `firsts` reads off the types at those positions of
the list before which no type is the same (`IsFirst`). One type more at the end of the list changes
`distinct` and `firsts` in the same way, so they are equal.

An optional type is the sum of its base and `void`, and the base can be read off it, except for one
base: the sum of `void` and `void` has a single alternative.

Results:
* `distinct_concat`, `firsts_concat`: one type more.
* **`distinct_eq_firsts`**: each type is kept where it occurs first.
* `distinct_eq_self_iff`, `distinct_append_eq_iff`: what changes nothing.
* `optionalBase?_optional`: the base of an optional type.
* **`ofAlternatives_canonical`**: what the alternatives of a sum are.
-/

namespace Quill.Ty

variable {t : Ty} {ts us : List Ty}

/-! ## First occurrences -/

/-- No type before the position is the same as the one there. -/
def IsFirst (ts : List Ty) (i : Fin ts.length) : Prop :=
  ∀ u ∈ ts.take i, ¬ Same u (ts.get i)

instance : DecidablePred (IsFirst ts) := fun i =>
  inferInstanceAs (Decidable (∀ u ∈ ts.take i, ¬ Same u (ts.get i)))

/-- The types that are the first of their kind, in the order of the list. -/
def firsts (ts : List Ty) : List Ty :=
  ((List.finRange ts.length).filter fun i => IsFirst ts i).map ts.get

/-- Where in the list a type is found first. -/
def firstAt (ts : List Ty) (t : Ty) : Nat := ts.findIdx (·.equivalent t)

theorem firstAt_get {i : Fin ts.length} (h : IsFirst ts i) : firstAt ts (ts.get i) = i := by
  refine (List.findIdx_eq i.2).mpr ⟨equivalent_refl _, fun j hj => Bool.eq_false_iff.mpr ?_⟩
  exact h _ (List.mem_take_iff_getElem.mpr ⟨j, by omega, rfl⟩)

theorem firsts_sublist (ts : List Ty) : (firsts ts).Sublist ts := by
  have hsub : (firsts ts).Sublist ((List.finRange ts.length).map ts.get) :=
    List.filter_sublist.map ts.get
  rwa [List.map_get_finRange] at hsub

theorem firsts_ordered (ts : List Ty) :
    (firsts ts).Pairwise fun a b => firstAt ts a < firstAt ts b := by
  refine List.pairwise_map.mpr ?_
  refine ((List.pairwise_lt_finRange _).filter _).imp_of_mem fun {i j} hi hj hlt => ?_
  have hi : IsFirst ts i := by simpa using hi
  have hj : IsFirst ts j := by simpa using hj
  rwa [firstAt_get hi, firstAt_get hj]

/-- Where no two types are the same, all are first. -/
theorem firsts_of_pairwise (h : ts.Pairwise fun a b => ¬ Same a b) : firsts ts = ts := by
  have hall : ∀ i ∈ List.finRange ts.length, decide (IsFirst ts i) = true := by
    intro i _
    refine decide_eq_true fun u hu => ?_
    obtain ⟨j, hj, rfl⟩ := List.mem_take_iff_getElem.mp hu
    exact List.pairwise_iff_getElem.mp h j i _ i.2 (by omega)
  rw [firsts, List.filter_eq_self.mpr hall, List.map_get_finRange]

/-! ## One type more -/

theorem finRange_concat (ts : List Ty) (t : Ty) (h : ts.length < (ts ++ [t]).length) :
    List.finRange (ts ++ [t]).length =
      (List.finRange ts.length).map (Fin.castLE h.le) ++ [⟨ts.length, h⟩] := by
  refine List.ext_getElem (by simp) fun i _ hi => Fin.ext ?_
  rw [List.getElem_append]
  split_ifs with hlt
  · simp
  · simp only [List.length_append, List.length_map, List.length_finRange, List.length_singleton]
      at hi hlt
    simp only [List.getElem_finRange, List.getElem_singleton, Fin.val_cast]
    omega

theorem isFirst_castLE {i : Fin ts.length} (h : ts.length ≤ (ts ++ [t]).length) :
    IsFirst (ts ++ [t]) (i.castLE h) ↔ IsFirst ts i := by
  simp [IsFirst, List.take_append_of_le_length i.2.le]

theorem isFirst_last (h : ts.length < (ts ++ [t]).length) :
    IsFirst (ts ++ [t]) ⟨ts.length, h⟩ ↔ ¬ ∃ u ∈ ts, Same u t := by
  simp [IsFirst]

/-- The last type is first if no other is the same; the others are first if they were. -/
theorem firsts_concat (ts : List Ty) (t : Ty) :
    firsts (ts ++ [t]) = if ∃ u ∈ ts, Same u t then firsts ts else firsts ts ++ [t] := by
  have hlen : ts.length < (ts ++ [t]).length := by simp
  have hget : (ts ++ [t]).get ∘ Fin.castLE hlen.le = ts.get := by
    funext i
    simp
  have hothers : ((List.finRange ts.length).map (Fin.castLE hlen.le)).filter
      (fun i => IsFirst (ts ++ [t]) i) =
        ((List.finRange ts.length).filter fun i => IsFirst ts i).map (Fin.castLE hlen.le) := by
    simp only [List.filter_map, Function.comp_def, isFirst_castLE]
  rw [firsts, finRange_concat ts t hlen, List.filter_append, List.map_append, hothers,
    List.map_map, hget, ← firsts]
  split_ifs with hseen
  · simp [mt (isFirst_last hlen).mp (not_not_intro hseen)]
  · simp [(isFirst_last hlen).mpr hseen]

/-- The pass looks at what it has kept only, but that lacks no type of the list. -/
theorem distinct_concat (ts : List Ty) (t : Ty) :
    distinct (ts ++ [t]) = if ∃ u ∈ ts, Same u t then distinct ts else distinct ts ++ [t] := by
  have hseen : (distinct ts).any (·.equivalent t) = true ↔ ∃ u ∈ ts, Same u t := by
    simp only [List.any_eq_true, mem_distinct]
  rw [distinct, List.foldl_concat]
  exact if_congr hseen rfl rfl

/-- **Each type is kept where it occurs first.** -/
theorem distinct_eq_firsts (ts : List Ty) : distinct ts = firsts ts := by
  induction ts using List.reverseRecOn with
  | nil => rfl
  | append_singleton ts t ih => rw [distinct_concat, firsts_concat, ih]

-- Sums are told apart by the order of their alternatives.
example : distinct [.sum [int, bool], int, .sum [bool, int], .sum [int, bool], int] =
    [.sum [int, bool], int, .sum [bool, int]] := by decide

/-! ## What changes nothing -/

theorem distinct_pairwise (ts : List Ty) : (distinct ts).Pairwise fun a b => ¬ Same a b :=
  (pairwise_foldl_distinct .nil).imp Bool.eq_false_iff.mp

/-- A list is left as it is if and only if no two of its types are the same. -/
theorem distinct_eq_self_iff : distinct ts = ts ↔ ts.Pairwise fun a b => ¬ Same a b := by
  constructor
  · intro h
    exact h ▸ distinct_pairwise ts
  · intro h
    rw [distinct_eq_firsts, firsts_of_pairwise h]

/-- More types change nothing if and only if each is the same as one that is there. -/
theorem distinct_append_eq_iff :
    distinct (ts ++ us) = distinct ts ↔ ∀ u ∈ us, ∃ t ∈ ts, Same t u := by
  constructor
  · intro h u hu
    have hmem : u ∈ distinct (ts ++ us) := mem_distinct.mpr (List.mem_append_right ts hu)
    exact ⟨u, mem_distinct.mp (h ▸ hmem), equivalent_refl u⟩
  · intro h
    rw [distinct, List.foldl_append]
    refine foldl_distinct_of_subset fun u hu => ?_
    obtain ⟨t, ht, hsame⟩ := h u hu
    exact mem_distinct.mpr (equivalent_iff.mp hsame ▸ ht)

/-! ## Optional types -/

/-- The base of an optional type, unless it is `void`. -/
theorem optionalBase?_optional (t : Ty) :
    (optional t).optionalBase? = if t = void then none else some t := by
  have hpair : distinct [t, void] = if t = void then [t] else [t, void] := by
    rw [← List.singleton_append, distinct_concat]
    simp [equivalent_iff, distinct]
  rw [optional, ofAlternatives, hpair]
  split_ifs with hvoid
  · rfl
  · rfl

/-! ## Sums -/

/-- The alternatives of the sum of some types, and how the sum depends on them. -/
structure Canonical (ts alternatives : List Ty) : Prop where
  /-- They are the types that are the first of their kind, -/
  first : alternatives = firsts ts
  /-- a part of the list in its order. -/
  sublist : alternatives.Sublist ts
  /-- No two of them are the same, -/
  apart : alternatives.Pairwise fun a b => ¬ Same a b ∧ ¬ Same b a
  /-- and every type of the list is the same as one of them. -/
  covered : ∀ t ∈ ts, ∃ a ∈ alternatives, Same t a
  /-- What is found earlier in the list is an earlier alternative. -/
  ordered : alternatives.Pairwise fun a b => firstAt ts a < firstAt ts b
  /-- The alternatives make the sum again, -/
  rebuilt : ofAlternatives alternatives = .sum alternatives
  /-- and so does the list with more types, if and only if it had all of them. -/
  appended : ∀ us, ofAlternatives (ts ++ us) = .sum alternatives ↔ ∀ u ∈ us, ∃ t ∈ ts, Same t u

theorem canonical_distinct (ts : List Ty) : Canonical ts (distinct ts) where
  first := distinct_eq_firsts ts
  sublist := distinct_eq_firsts ts ▸ firsts_sublist ts
  apart := (distinct_pairwise ts).imp fun h => ⟨h, fun hsame => h (same_equivalence.symm hsame)⟩
  covered t ht := ⟨t, mem_distinct.mpr ht, equivalent_refl t⟩
  ordered := distinct_eq_firsts ts ▸ firsts_ordered ts
  rebuilt := congrArg Ty.sum (distinct_eq_self_iff.mpr (distinct_pairwise ts))
  appended us := by rw [ofAlternatives, sum.injEq, distinct_append_eq_iff]

/-- **A sum has each type once, where it occurs first.** Its alternatives make it again, and types
that it has already add nothing. The base of an optional type can be read off it unless it is
`void`. -/
theorem ofAlternatives_canonical :
    (∀ ts : List Ty, ∃ alternatives, ofAlternatives ts = .sum alternatives ∧
      Canonical ts alternatives) ∧
      (∀ t : Ty, (optional t).optionalBase? = some t ↔ t ≠ void) ∧
      (optional void).optionalBase? = none := by
  refine ⟨fun ts => ⟨distinct ts, rfl, canonical_distinct ts⟩, fun t => ?_, rfl⟩
  rw [optionalBase?_optional]
  split_ifs with hvoid <;> simp [hvoid]

end Quill.Ty
