import Quill.Proofs.Evaluation

/-!
# What is assigned to

The target of an assignment names a place: a variable, an element of an array in another place, or a
field of a struct in another place. A conditional names the place that its arm names, and `??` the
one its right operand names when the left one is absent; every other expression names no place, and
is known by its value.

Simplification replaces conditionals and `??` by what is left of them, and both may stand where an
array or a struct is changed. Other operators do not: their results are neither arrays nor structs.

Results:
* `Expr.place_simplify`: a simplified target names the place that the target names.
-/

namespace Quill

/-- The types of values that are made of places: arrays and structs. -/
def Ty.HasPlaces (t : Ty) : Prop := (∃ s, t = .array s) ∨ ∃ id, t = .struct id

theorem Ty.HasPlaces.of_assignable {a b : Ty} (hab : a.assignable b = true) (hb : b.HasPlaces) :
    a.HasPlaces := by
  rcases hb with ⟨s, rfl⟩ | ⟨id, rfl⟩
  · exact .inl (isArray_of_assignable_array hab)
  · exact .inr ⟨id, eq_of_assignable_struct hab⟩

/-- Of the operators, only `??` gives arrays and structs. -/
theorem BinaryOp.Accepts.eq_coalesce {op : BinaryOp} {left right t : Ty}
    (h : op.Accepts left right t) (ht : t.HasPlaces) : op = .coalesce := by
  by_contra hop
  obtain ⟨c, hc⟩ : ∃ c, t = op.resultType (.basic c) := by
    obtain ⟨hres, hs | ⟨c, -, hleft⟩⟩ := h.resultType_eq hop
    · exact ⟨.bool, hs _⟩
    · exact ⟨c, hleft ▸ hres⟩
  obtain ⟨d, hd⟩ : ∃ d, op.resultType (.basic c) = .basic d := by
    cases op <;> exact ⟨_, rfl⟩
  rw [hc, hd] at ht
  rcases ht with ⟨_, ht⟩ | ⟨_, ht⟩ <;> cases ht

namespace Typed

variable {α : Type}

/-- A place, with the values of the indices that lead to it. -/
inductive Place (α : Type) where
  | variable (id : Nat)
  | element (base : Place α) (index : Value α)
  | field (base : Place α) (name : String)
  /-- No place, but a value. -/
  | value (x : Value α)

namespace Expr

/-- The place that an expression names. -/
def place (M : Meaning α) : Expr → Option (Place α)
  | .variable v => some (.variable v.id)
  | .subscript items index _ => do
    let base ← place M items
    let i ← index.eval M
    return .element base i
  | .member object field false _ => do
    let base ← place M object
    return .field base field
  | .conditional test yes no _ => do
    let a ← test.eval M
    a.choose (place M yes) (place M no) none
  | .binary .coalesce left right _ => do
    let a ← left.eval M
    if Meaning.needsRight .coalesce a then place M right
    else (M.alone .coalesce a).map .value
  | e => (e.eval M).map .value

variable {N : Meaning α} {p : Place α}

theorem place_simplifyConditional (test yes no : Expr) (t : Ty) :
    place N (simplifyConditional test yes no t) = place N (.conditional test yes no t) := by
  unfold simplifyConditional
  split_ifs with hyes hno
  · cases eq_bool_of_isBool hyes
    rfl
  · cases eq_bool_of_isBool hno
    rfl
  · rfl

theorem place_simplifyCoalesce (l r : Expr) (t : Ty) :
    place N (simplifyBinary .coalesce l r t) = place N (.binary .coalesce l r t) := by
  rcases both_literals_or l r with ⟨a, b, rfl, rfl⟩ | hlit
  · cases a <;> cases b <;> rfl
  rw [simplifyBinary_of_literal?_eq_none hlit, replacement?]
  split_ifs with habs
  · obtain ⟨s, rfl⟩ := eq_absent_of_isAbsent habs
    rfl
  · rfl

theorem place_simplifyUnary (op : UnaryOp) (e : Expr) (t : Ty) :
    place N (simplifyUnary op e t) = (eval N (simplifyUnary op e t)).map .value := by
  unfold simplifyUnary
  split <;> rfl

/-- **A simplified target names the place that the target names**, and so does a simplified
expression whose values are made of places. -/
theorem place_simplify {e : Expr} (he : e.Everywhere Exact)
    (ht : Check.targetFault? e = none ∨ e.type.HasPlaces) {p : Place α}
    (hp : place N e = some p) : place N e.simplify = some p := by
  induction e using Expr.induction generalizing p with
  | var v => exact hp
  | subscript items index t hitems _ =>
    obtain ⟨base, hbase, hrest⟩ := Option.bind_eq_some_iff.mp hp
    obtain ⟨i, hi, hpi⟩ := Option.bind_eq_some_iff.mp hrest
    have hbase := hitems (he.inside items (by simp [parts]))
      (.inr (.inl ⟨t, he.here.1.1⟩)) hbase
    have hi := eval_simplify_of_exact (he.inside index (by simp [parts])) hi
    exact Option.bind_eq_some_iff.mpr ⟨base, hbase, Option.bind_eq_some_iff.mpr ⟨i, hi, hpi⟩⟩
  | member object field chained t ih =>
    cases chained with
    | false =>
      obtain ⟨base, hbase, hpf⟩ := Option.bind_eq_some_iff.mp hp
      have hbase := ih (he.inside object (by simp [parts])) (.inr (.inr he.here.1)) hbase
      exact Option.bind_eq_some_iff.mpr ⟨base, hbase, hpf⟩
    | true =>
      obtain ⟨v, hv, rfl⟩ := Option.map_eq_some_iff.mp hp
      exact Option.map_eq_some_iff.mpr ⟨v, eval_simplify_of_exact he hv, rfl⟩
  | conditional test yes no t _ hyes hno =>
    have hpl : t.HasPlaces := ht.resolve_left (by simp [Check.targetFault?])
    obtain ⟨a, ha, harm⟩ := Option.bind_eq_some_iff.mp hp
    rw [simplify, place_simplifyConditional]
    refine Option.bind_eq_some_iff.mpr ⟨a, eval_simplify_of_exact
      (he.inside test (by simp [parts])) ha, ?_⟩
    unfold Value.choose at harm ⊢
    split at harm
    · exact hyes (he.inside yes (by simp [parts]))
        (.inr (he.here.1.2.1 ▸ hpl)) harm
    · exact hno (he.inside no (by simp [parts]))
        (.inr (he.here.1.2.2 ▸ hpl)) harm
    · cases harm
  | binary op left right t _ hr =>
    have hpl : t.HasPlaces := ht.resolve_left (by simp [Check.targetFault?])
    have hacc : op.Accepts left.type right.type t := he.here.1
    obtain rfl := hacc.eq_coalesce hpl
    obtain ⟨a, ha, hrest⟩ := Option.bind_eq_some_iff.mp hp
    rw [simplify, place_simplifyCoalesce]
    refine Option.bind_eq_some_iff.mpr ⟨a, eval_simplify_of_exact
      (he.inside left (by simp [parts])) ha, ?_⟩
    split at hrest
    · rename_i hneed
      rw [if_pos hneed]
      exact hr (he.inside right (by simp [parts]))
        (.inr (hpl.of_assignable hacc.2)) hrest
    · rename_i hneed
      rw [if_neg hneed]
      exact hrest
  | unary op operand t _ =>
    obtain ⟨v, hv, rfl⟩ := Option.map_eq_some_iff.mp hp
    rw [simplify, place_simplifyUnary]
    exact Option.map_eq_some_iff.mpr ⟨v, eval_simplify_of_exact he hv, rfl⟩
  | _ =>
    obtain ⟨v, hv, rfl⟩ := Option.map_eq_some_iff.mp hp
    exact Option.map_eq_some_iff.mpr ⟨v, eval_simplify_of_exact he hv, rfl⟩

end Expr

end Typed

end Quill
