import Quill.Proofs.Fitting
import Quill.Proofs.Passing
import Quill.Proofs.Typing

/-!
# Elements and the array they make

The elements of an array have one type, which is then the element type, or the element type is the
sum of their types. An element that is no sum fits it either way: its type is the sum itself or an
alternative of it. An element that is a sum is an alternative too, but a sum is not held against
another as a whole. It fits if it has no more alternatives than the other, each of which fits one of
the other's. Those that are no sums again do, since the element is an alternative; so the number is
what decides, and what is nested deeper (`Ty.HasRoom`).

An array may therefore refuse its own elements. In `[[1, true, ""][0], 2]` the first element has
three types, and the element type two: the sum of the three, and `int`.

Results:
* `Ty.sum_fits_sum_iff_of_mem`: when an alternative that is a sum fits.
* `type_eq_or_mem_alternatives`: the type of an element is the element type or an alternative of it.
* **`putBack_of_expr_array`**: which elements may be put back.
* `array_refuses_element`: not all of them.
-/

namespace Quill

namespace Ty

variable {a : Ty} {as ts : List Ty}

/-- What is no sum fits the sums that it is an alternative of. -/
theorem fits_sum_of_mem (ha : a.isSum = false) (hmem : a ∈ ts) : a.Fits (.sum ts) :=
  assignable_iff.mpr (.inr (.inr ((stepFits_sum_iff ha).mpr ⟨a, hmem, fits_refl a⟩)))

/-- There are as many alternatives on the right, and one for each sum on the left. -/
def HasRoom (as ts : List Ty) : Prop :=
  as.length ≤ ts.length ∧ ∀ a ∈ as, a.isSum = true → ∃ t ∈ ts, a.Fits t

/-- No sum is an alternative of itself. -/
theorem sum_notMem (ts : List Ty) : Ty.sum ts ∉ ts := by
  intro hmem
  have hlt := List.sizeOf_lt_of_mem hmem
  simp only [Ty.sum.sizeOf_spec] at hlt
  omega

/-- **When an alternative that is a sum fits.** -/
theorem sum_fits_sum_iff_of_mem (hmem : Ty.sum as ∈ ts) :
    (Ty.sum as).Fits (.sum ts) ↔ HasRoom as ts := by
  rw [assignable_iff]
  constructor
  · rintro (hany | heq | ⟨hlen, hall⟩)
    · cases hany
    · exact absurd (heq ▸ hmem) (sum_notMem ts)
    · exact ⟨hlen, fun a ha _ => hall a ha⟩
  · rintro ⟨hlen, hsums⟩
    refine .inr (.inr ⟨hlen, fun a ha => ?_⟩)
    by_cases hsum : a.isSum = true
    · exact hsums a ha hsum
    · -- one step down it fits the sum on the left, which is an alternative on the right
      exact ⟨.sum as, hmem, fits_sum_of_mem (Bool.eq_false_iff.mpr hsum) ha⟩

end Ty

namespace Check

open Syntax Checker

variable {env : Env}

/-! ## The element type -/

theorem exprs_eq_ok_iff : ∀ {es : List Expr} {elements : List Typed.Expr},
    exprs env es = .ok elements ↔ List.Forall₂ (fun u x => expr env u = .ok x) es elements := by
  intro es
  induction es with
  | nil =>
    intro elements
    rw [exprs, pure_eq_ok, List.forall₂_nil_left_iff, eq_comm]
  | cons u es ih =>
    intro elements
    simp only [exprs, bind_eq_ok, pure_eq_ok, ih, List.forall₂_cons_left_iff]
    constructor
    · rintro ⟨x, hx, xs, hxs, rfl⟩
      exact ⟨x, xs, hx, hxs, rfl⟩
    · rintro ⟨x, xs, hx, hxs, rfl⟩
      exact ⟨x, hx, xs, hxs, rfl⟩

/-- The type of an element is the element type, or one of its two or more alternatives. -/
theorem type_eq_or_mem_alternatives {elements : List Typed.Expr} {x : Typed.Expr}
    (hx : x ∈ elements) :
    x.type = elementType elements ∨
      ∃ ts, elementType elements = .sum ts ∧ x.type ∈ ts ∧ 2 ≤ ts.length := by
  obtain ⟨hone, hmany⟩ := isArrayType_elementType elements
  by_cases hs : ∃ s, elements ≠ [] ∧ ∀ e ∈ elements, e.type = s
  · obtain ⟨s, hne, hs⟩ := hs
    rw [Ty.array.inj (hone s hne hs)]
    exact .inl (hs x hx)
  · have hmem : x.type ∈ Ty.distinct (elements.map (·.type)) :=
      Ty.mem_distinct.mpr (List.mem_map_of_mem hx)
    refine .inr ⟨_, Ty.array.inj (hmany hs), hmem, ?_⟩
    by_contra hlen
    obtain ⟨t, ht⟩ := List.length_eq_one_iff.mp
      (by have := List.length_pos_of_mem hmem; omega :
        (Ty.distinct (elements.map (·.type))).length = 1)
    have hsame := (Ty.distinct_eq_singleton_iff.mp ht).2
    exact hs ⟨t, List.ne_nil_of_mem hx, fun e he => hsame _ (List.mem_map_of_mem he)⟩

/-! ## Putting an element back -/

theorem exists_assignment_iff {s : State} {p u : Expr} {place x : Typed.Expr}
    (hp : expr s.env p = .ok place) (hplace : targetFault? place = none)
    (hu : expr s.env u = .ok x) :
    (∃ r s', assignment p u s = .ok r s') ↔ x.type.Fits place.type := by
  constructor
  · rintro ⟨⟨place', x'⟩, s', h⟩
    obtain ⟨hp', -, hu', hfits, -⟩ := assignment_eq h
    rw [hp] at hp'
    rw [hu] at hu'
    rwa [Except.ok.inj hp', Except.ok.inj hu']
  · intro hfits
    exact ⟨_, _, run_assignment hp hplace hu hfits⟩

theorem arguments_singleton_iff {u : Expr} {x : Typed.Expr} {t : Ty} (hu : expr env u = .ok x) :
    (∃ xs, arguments env [t] [u] = .ok xs) ↔ x.type.Fits t := by
  constructor
  · rintro ⟨xs, h⟩
    simp only [arguments, bind_eq_ok, pure_eq_ok] at h
    obtain ⟨y, hy, _, hfits, -, -, -⟩ := h
    rw [hu] at hy
    rw [Except.ok.inj hy]
    exact expectAssignable_ok hfits
  · intro hfits
    refine ⟨[x], ?_⟩
    simp only [arguments, bind_eq_ok, pure_eq_ok]
    exact ⟨x, hu, (), expectAssignable_of_fits hfits, [], rfl, rfl⟩

/-- What may be done with the element `x` of an array of `t`s, which is written `u`. -/
structure PutBack (t : Ty) (u : Expr) (x : Typed.Expr) : Prop where
  /-- Its type is the element type or an alternative of it. -/
  among : x.type = t ∨ ∃ ts, t = .sum ts ∧ x.type ∈ ts
  /-- It fits if it is no sum, -/
  single : x.type.isSum = false → x.type.Fits t
  /-- if it is an optional value of what is no sum, -/
  optional : ∀ base, x.type.optionalBase? = some base → base.isSum = false → x.type.Fits t
  /-- and otherwise if the element type is its type or has room for it. -/
  sum : ∀ as, x.type = .sum as →
    (x.type.Fits t ↔ t = .sum as ∨ ∃ ts, t = .sum ts ∧ Ty.HasRoom as ts)
  /-- If it fits, and only then, it may be stored where a `t` is kept, -/
  stored : ∀ (s : State) (p : Expr) (place : Typed.Expr), expr s.env u = .ok x →
    expr s.env p = .ok place → targetFault? place = none → place.type = t →
    ((∃ r s', assignment p u s = .ok r s') ↔ x.type.Fits t)
  /-- or passed where one is wanted. -/
  passed : ∀ env, expr env u = .ok x → ((∃ xs, arguments env [t] [u] = .ok xs) ↔ x.type.Fits t)

theorem putBack_of_mem {elements : List Typed.Expr} {u : Expr} {x : Typed.Expr}
    (hx : x ∈ elements) : PutBack (elementType elements) u x where
  among := by
    rcases type_eq_or_mem_alternatives hx with heq | ⟨ts, hts, hmem, -⟩
    · exact .inl heq
    · exact .inr ⟨ts, hts, hmem⟩
  single hsingle := by
    rcases type_eq_or_mem_alternatives hx with heq | ⟨ts, hts, hmem, -⟩
    · exact heq ▸ Ty.fits_refl _
    · exact hts ▸ Ty.fits_sum_of_mem hsingle hmem
  optional base hbase hsingle := by
    have htype := Ty.eq_sum_of_optionalBase? hbase
    rcases type_eq_or_mem_alternatives hx with heq | ⟨ts, hts, hmem, hlen⟩
    · exact heq ▸ Ty.fits_refl _
    · rw [htype] at hmem ⊢
      rw [hts, Ty.sum_fits_sum_iff_of_mem hmem]
      refine ⟨hlen, fun a ha hsum => ?_⟩
      rcases List.mem_pair.mp ha with rfl | rfl
      · exact absurd hsum (by simp [hsingle])
      · cases hsum
  sum as htype := by
    rw [htype]
    rcases type_eq_or_mem_alternatives hx with heq | ⟨ts, hts, hmem, -⟩
    · rw [← heq, htype]
      exact ⟨fun _ => .inl rfl, fun _ => Ty.fits_refl _⟩
    · rw [htype] at hmem
      rw [hts, Ty.sum_fits_sum_iff_of_mem hmem]
      constructor
      · exact fun hroom => .inr ⟨ts, rfl, hroom⟩
      · rintro (heq | ⟨us, heq, hroom⟩)
        · exact absurd (Ty.sum.inj heq ▸ hmem) (Ty.sum_notMem as)
        · exact Ty.sum.inj heq ▸ hroom
  stored s p place hu hp hplace htype := htype ▸ exists_assignment_iff hp hplace hu
  passed _ hu := arguments_singleton_iff hu

/-- **Which elements may be put back** into the array they make: all that are no sums, and of the
sums those for which the element type has room. -/
theorem putBack_of_expr_array {es : List Expr} {span : Span} {e : Typed.Expr}
    (h : expr env (.array es span) = .ok e) :
    ∃ elements t, e = .array elements (.array t) ∧
      List.Forall₂ (fun u x => expr env u = .ok x ∧ PutBack t u x) es elements := by
  simp only [expr, bind_eq_ok, pure_eq_ok] at h
  obtain ⟨elements, hes, rfl⟩ := h
  refine ⟨elements, elementType elements, rfl, ?_⟩
  rw [exprs_eq_ok_iff] at hes
  refine List.forall₂_iff_get.mpr ⟨hes.length_eq, fun i hu hx => ?_⟩
  exact ⟨(List.forall₂_iff_get.mp hes).2 i hu hx, putBack_of_mem (List.get_mem _ _)⟩

namespace Sample

/-- The value of a sum type: the first of an array of such values. -/
def first (es : List Expr) : Expr := .subscript (.array es default) (.int 0 default) default

/-- `first` once it is checked. -/
def checkedFirst (es : List Typed.Expr) (ts : List Ty) : Typed.Expr :=
  .subscript (.array es (.array (.sum ts))) (.int 0) (.sum ts)

end Sample

/-- `[[1, true][0], ""]` has room for its first element. -/
theorem putBack_of_expr_array_pair :
    ∃ elements t, expr ⟨.root, .empty⟩
        (.array [Sample.first [.int 1 default, .bool true default], .string "" default] default) =
          .ok (.array elements (.array t)) ∧
      ∃ x ∈ elements, x.type = .sum [.int, .bool] ∧ x.type.Fits t := by
  have h : expr ⟨.root, .empty⟩
      (.array [Sample.first [.int 1 default, .bool true default], .string "" default] default) =
        .ok (.array [Sample.checkedFirst [.int 1, .bool true] [.int, .bool], .string ""]
          (.array (.sum [.sum [.int, .bool], .string]))) := by cbv
  obtain ⟨elements, t, he, hall⟩ := putBack_of_expr_array h
  cases he
  refine ⟨_, _, h, _, List.mem_cons_self, rfl, ?_⟩
  have hput := (List.forall₂_cons.mp hall).1.2
  refine (hput.sum _ rfl).mpr (.inr ⟨_, rfl, by decide, ?_⟩)
  intro a ha hsum
  rcases List.mem_pair.mp ha with rfl | rfl <;> cases hsum

/-- An array may refuse its own elements: `[[1, true, ""][0], 2]` has no room for its first. -/
theorem array_refuses_element :
    ¬ ∀ (env : Env) (es : List Expr) (span : Span) (elements : List Typed.Expr) (t : Ty),
      expr env (.array es span) = .ok (.array elements (.array t)) →
        ∀ x ∈ elements, x.type.Fits t := by
  intro h
  have hexpr : expr ⟨.root, .empty⟩
      (.array [Sample.first [.int 1 default, .bool true default, .string "" default],
        .int 2 default] default) =
        .ok (.array [Sample.checkedFirst [.int 1, .bool true, .string ""] [.int, .bool, .string],
          .int 2] (.array (.sum [.sum [.int, .bool, .string], .int]))) := by cbv
  have hfits := h _ _ _ _ _ hexpr _ List.mem_cons_self
  exact absurd ((Ty.sum_fits_sum_iff_of_mem List.mem_cons_self).mp hfits).1 (by decide)

end Check

end Quill
