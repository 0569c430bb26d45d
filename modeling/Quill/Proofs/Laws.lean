import Quill.Proofs.Identity
import Quill.Proofs.Meaning
import Quill.Proofs.Word

/-!
# The identities hold of values

Each identity of an operator replaces it by something with the value the operator has, where it has
one: for integers because zero and one are neutral there, for truth values because of the order of
evaluation. Floats are apart: `x + 0.0` is not `x` when `x` is the negative zero.

Results:
* `Meaning.binary_cases`: the values that an operator other than a comparison takes.
* `Replacement.value_of_binary`: the identities of arithmetic, on integers.
* `Expr.run_replacement`: evaluating what takes the place of an arithmetic operator.
* `Expr.run_shortcut`: evaluating what takes the place of `||`, `&&` and `??`.
* `Expr.run_simplifyConditional`, `Expr.run_simplifyUnary`, `Expr.run_fold`: the other rules change
  nothing about evaluation.
-/

namespace Quill

/-- The operators that calculate. -/
def BinaryOp.isArithmetic : BinaryOp → Bool
  | .add | .subtract | .multiply | .divide | .remainder | .power => true
  | _ => false

namespace Typed

variable {α : Type} {op : BinaryOp} {l r : Expr} {t : Ty} {w : Expr.Replacement}

/-! ## Operators on literals -/

namespace Meaning

variable {M : Meaning α} {a b v : Value α} {n : Int64}

theorem isComparison_of_isArithmetic (hop : op.isArithmetic = true) : op.isComparison = false := by
  cases op <;> cases hop <;> rfl

theorem needsRight_of_isArithmetic (hop : op.isArithmetic = true) (a : Value α) :
    needsRight op a = true := by
  cases op <;> cases hop <;> rfl

theorem both_of_isArithmetic (hop : op.isArithmetic = true) : M.both op a b = M.binary op a b :=
  if_neg (by rintro rfl; cases hop)

/-- **What operators other than comparisons take**: two literals of one kind. -/
theorem binary_cases (hop : op.isComparison = false) (h : M.binary op a b = some v) :
    (∃ m n c, a = .literal (.int m) ∧ b = .literal (.int n) ∧
      Literal.foldInt? op m n = some c ∧ v = .literal c) ∨
    (∃ x y, a = .literal (.float x) ∧ b = .literal (.float y)) ∨
    (∃ x y, a = .literal (.string x) ∧ b = .literal (.string y)) ∨
    (∃ x y c, a = .literal (.bool x) ∧ b = .literal (.bool y) ∧
      Literal.foldBool? op x y = some c ∧ v = .literal c) := by
  unfold binary at h
  split at h
  · obtain ⟨c, hc, rfl⟩ := Option.map_eq_some_iff.mp h
    exact .inl ⟨_, _, c, rfl, rfl, hc, rfl⟩
  · exact .inr (.inl ⟨_, _, rfl, rfl⟩)
  · exact .inr (.inr (.inl ⟨_, _, rfl, rfl⟩))
  · obtain ⟨c, hc, rfl⟩ := Option.map_eq_some_iff.mp h
    exact .inr (.inr (.inr ⟨_, _, c, rfl, rfl, hc, rfl⟩))
  · rw [if_neg (by rw [hop]; exact Bool.false_ne_true)] at h
    cases h

theorem binary_int_right (hop : op.isArithmetic = true)
    (h : M.binary op a (.literal (.int n)) = some v) :
    ∃ m c, a = .literal (.int m) ∧ Literal.foldInt? op m n = some c ∧ v = .literal c := by
  obtain ⟨m, _, c, ha, hb, hc⟩ | ⟨_, _, _, hb⟩ | ⟨_, _, _, hb⟩ | ⟨_, _, _, _, hb, _⟩ :=
    binary_cases (isComparison_of_isArithmetic hop) h <;> cases hb
  exact ⟨m, c, ha, hc⟩

theorem binary_int_left (hop : op.isArithmetic = true)
    (h : M.binary op (.literal (.int n)) b = some v) :
    ∃ m c, b = .literal (.int m) ∧ Literal.foldInt? op n m = some c ∧ v = .literal c := by
  obtain ⟨_, m, c, ha, hb, hc⟩ | ⟨_, _, ha, _⟩ | ⟨_, _, ha, _⟩ | ⟨_, _, _, ha, _⟩ :=
    binary_cases (isComparison_of_isArithmetic hop) h <;> cases ha
  exact ⟨m, c, hb, hc⟩

theorem binary_bool_right {y : Bool} (hop : op.isComparison = false)
    (h : M.binary op a (.literal (.bool y)) = some v) :
    ∃ x c, a = .literal (.bool x) ∧ Literal.foldBool? op x y = some c ∧ v = .literal c := by
  obtain ⟨_, _, _, _, hb, _⟩ | ⟨_, _, _, hb⟩ | ⟨_, _, _, hb⟩ | ⟨x, _, c, ha, hb, hc⟩ :=
    binary_cases hop h <;> cases hb
  exact ⟨x, c, ha, hc⟩

theorem binary_bool_left {x : Bool} (hop : op.isComparison = false)
    (h : M.binary op (.literal (.bool x)) b = some v) :
    ∃ y c, b = .literal (.bool y) ∧ Literal.foldBool? op x y = some c ∧ v = .literal c := by
  obtain ⟨_, _, _, ha, _⟩ | ⟨_, _, ha, _⟩ | ⟨_, _, ha, _⟩ | ⟨_, y, c, ha, hb, hc⟩ :=
    binary_cases hop h <;> cases ha
  exact ⟨y, c, hb, hc⟩

end Meaning

/-! ## Arithmetic -/

namespace Expr

variable {M : Meaning α} {a b v : Value α}

/-- The value of a replacement of type `t`, given those of the operands. -/
def Replacement.value (M : Meaning α) (t : Ty) (a b : Value α) : Replacement → Option (Value α)
  | .left => some a
  | .right => some b
  | .opposite => M.unary .negate b
  | .zero => some (.literal (if t = .float then .float 0.0 else .int 0))
  | .one => some (.literal (if t = .float then .float 1.0 else .int 1))
  | .truth b => some (.literal (.bool b))

theorem eq_int_of_isZero {e : Expr} (h : e.isZero = true) (hf : ∀ x, e ≠ .float x) :
    e = .int 0 := by
  unfold isZero at h
  split at h
  · rw [of_decide_eq_true h]
  · exact absurd rfl (hf _)
  · cases h

theorem eq_int_of_isOne {e : Expr} (h : e.isOne = true) (hf : ∀ x, e ≠ .float x) :
    e = .int 1 := by
  unfold isOne at h
  split at h
  · rw [of_decide_eq_true h]
  · exact absurd rfl (hf _)
  · cases h

/-- **The identities of arithmetic hold of integers.** The operands are known to have the values
`a` and `b` where they are literals, and neither is the literal of a float. -/
theorem Replacement.value_of_binary (hw : Replaces op l r w) (hop : op.isArithmetic = true)
    (ht : t ≠ .float) (hl : ∀ x, l ≠ .float x) (hr : ∀ x, r ≠ .float x)
    (ha : ∀ c, l = .literal c → a = .literal c) (hb : ∀ c, r = .literal c → b = .literal c)
    (h : M.binary op a b = some v) : w.value M t a b = some v := by
  cases hw with
  | add_zero hz | subtract_zero hz =>
    cases hb _ (eq_int_of_isZero hz hr)
    obtain ⟨m, c, rfl, hc, rfl⟩ := Meaning.binary_int_right hop h
    simp only [Literal.foldInt?, Number.add?_zero, Number.sub?_zero] at hc
    cases hc
    rfl
  | zero_add hz =>
    cases ha _ (eq_int_of_isZero hz hl)
    obtain ⟨m, c, rfl, hc, rfl⟩ := Meaning.binary_int_left hop h
    simp only [Literal.foldInt?, Number.zero_add?] at hc
    cases hc
    rfl
  | zero_subtract hz =>
    cases ha _ (eq_int_of_isZero hz hl)
    obtain ⟨m, c, rfl, hc, rfl⟩ := Meaning.binary_int_left hop h
    simp only [Literal.foldInt?, Number.zero_sub?] at hc
    simp only [value, Meaning.unary, Literal.foldUnary?, hc, Option.map_some]
  | multiply_one hz | divide_one hz =>
    cases hb _ (eq_int_of_isOne hz hr)
    obtain ⟨m, c, rfl, hc, rfl⟩ := Meaning.binary_int_right hop h
    simp only [Literal.foldInt?, Number.mul?_one, Number.div?_one] at hc
    cases hc
    rfl
  | one_multiply hz =>
    cases ha _ (eq_int_of_isOne hz hl)
    obtain ⟨m, c, rfl, hc, rfl⟩ := Meaning.binary_int_left hop h
    simp only [Literal.foldInt?, Number.one_mul?] at hc
    cases hc
    rfl
  | zero_multiply hz =>
    cases ha _ (eq_int_of_isZero hz hl)
    obtain ⟨m, c, rfl, hc, rfl⟩ := Meaning.binary_int_left hop h
    simp only [Literal.foldInt?, Number.zero_mul?] at hc
    cases hc
    rw [value, if_neg ht]
  | multiply_zero hz | power_zero hz =>
    cases hb _ (eq_int_of_isZero hz hr)
    obtain ⟨m, c, rfl, hc, rfl⟩ := Meaning.binary_int_right hop h
    simp only [Literal.foldInt?, Number.mul?_zero, Number.power?_zero] at hc
    cases hc
    rw [value, if_neg ht]
  | zero_divide hz =>
    cases ha _ (eq_int_of_isZero hz hl)
    obtain ⟨m, c, rfl, hc, rfl⟩ := Meaning.binary_int_left hop h
    obtain ⟨q, hq, rfl⟩ := Option.map_eq_some_iff.mp hc
    rw [value, if_neg ht, Number.eq_zero_of_zero_div? hq]
  | one_power hz =>
    cases ha _ (eq_int_of_isOne hz hl)
    obtain ⟨m, c, rfl, hc, rfl⟩ := Meaning.binary_int_left hop h
    obtain ⟨q, hq, rfl⟩ := Option.map_eq_some_iff.mp hc
    rw [value, if_neg ht, Number.eq_one_of_one_power? hq]
  | _ => cases hop

/-- The operator gives way to a literal, whatever its operands leave behind. -/
def Replacement.isConstant : Replacement → Bool
  | .zero | .one => true
  | _ => false

/-- The operand that is dropped without leaving a literal in its place is a literal itself. -/
theorem Replaces.dropped_literal (hw : Replaces op l r w) (hop : op.isArithmetic = true) :
    w.isConstant = true ∨ (w = .left ∧ ∃ c, r = .literal c) ∨
      ((w = .right ∨ w = .opposite) ∧ ∃ c, l = .literal c) := by
  cases hw with
  | zero_multiply | multiply_zero | zero_divide | one_power | power_zero => exact .inl rfl
  | add_zero h | subtract_zero h => exact .inr (.inl ⟨rfl, eq_literal_of_isZero h⟩)
  | multiply_one h | divide_one h => exact .inr (.inl ⟨rfl, eq_literal_of_isOne h⟩)
  | zero_add h => exact .inr (.inr ⟨.inl rfl, eq_literal_of_isZero h⟩)
  | one_multiply h => exact .inr (.inr ⟨.inl rfl, eq_literal_of_isOne h⟩)
  | zero_subtract h => exact .inr (.inr ⟨.inr rfl, eq_literal_of_isZero h⟩)
  | _ => cases hop

/-! ## Evaluating what is left -/

variable {N : List (Event α) → Meaning α} {h ta tb u : List (Event α)}

theorem run_literal (c : Literal) : run N (.literal c) h = some (.literal c, []) := rfl

/-- An operator has its value from both operands, or from the left one. -/
theorem run_binary_eq_some :
    run N (.binary op l r t) h = some (v, u) ↔ ∃ a ta, run N l h = some (a, ta) ∧
      ((Meaning.needsRight op a = true ∧ ∃ b tb, run N r (h ++ ta) = some (b, tb) ∧
          (N (h ++ ta ++ tb)).both op a b = some v ∧ u = ta ++ tb) ∨
        (Meaning.needsRight op a = false ∧ (N (h ++ ta)).alone op a = some v ∧ u = ta)) := by
  rw [run, Traced.bind_eq_some]
  constructor
  · rintro ⟨a, ta, w, hl, hw, rfl⟩
    refine ⟨a, ta, hl, ?_⟩
    split at hw
    · rename_i hneed
      obtain ⟨b, tb, _, hr, hans, rfl⟩ := Traced.bind_eq_some.mp hw
      obtain ⟨hv, rfl⟩ := Traced.answer_eq_some.mp hans
      exact .inl ⟨hneed, b, tb, hr, hv, by rw [List.append_nil]⟩
    · rename_i hneed
      obtain ⟨hv, rfl⟩ := Traced.answer_eq_some.mp hw
      exact .inr ⟨Bool.eq_false_iff.mpr hneed, hv, by rw [List.append_nil]⟩
  · rintro ⟨a, ta, hl, ⟨hneed, b, tb, hr, hv, rfl⟩ | ⟨hneed, hv, rfl⟩⟩
    · refine ⟨a, ta, tb, hl, ?_, rfl⟩
      rw [if_pos hneed]
      exact Traced.bind_eq_some.mpr
        ⟨b, tb, [], hr, Traced.answer_eq_some.mpr ⟨hv, rfl⟩, by rw [List.append_nil]⟩
    · refine ⟨a, u, [], hl, ?_, by rw [List.append_nil]⟩
      rw [if_neg (by simp [hneed])]
      exact Traced.answer_eq_some.mpr ⟨hv, rfl⟩

theorem run_binary_of_isArithmetic (hop : op.isArithmetic = true) :
    run N (.binary op l r t) h = some (v, u) ↔
      ∃ a ta b tb, run N l h = some (a, ta) ∧ run N r (h ++ ta) = some (b, tb) ∧
        (N (h ++ ta ++ tb)).binary op a b = some v ∧ u = ta ++ tb := by
  simp [run_binary_eq_some, Meaning.needsRight_of_isArithmetic hop,
    Meaning.both_of_isArithmetic hop]

/-- **What takes the place of an arithmetic operator** has the value that the identity gives it, and
leaves the events of both operands behind, or none. -/
theorem run_replacement (hw : Replaces op l r w) (hop : op.isArithmetic = true)
    (hl : run N l h = some (a, ta)) (hr : run N r (h ++ ta) = some (b, tb))
    (hv : w.value (N (h ++ ta ++ tb)) t a b = some v) :
    run N (w.expr l r t) h = some (v, if w.isConstant then [] else ta ++ tb) := by
  rcases hw.dropped_literal hop with hc | ⟨rfl, c, rfl⟩ | ⟨hside, c, rfl⟩
  · rw [if_pos hc]
    cases w with
    | zero | one =>
      cases hv
      simp only [Replacement.expr, zeroOf, oneOf]
      split_ifs <;> rfl
    | _ => cases hc
  · rw [run_literal] at hr
    cases hr
    cases hv
    simpa [Replacement.expr, Replacement.isConstant] using hl
  · rw [run_literal] at hl
    cases hl
    rw [List.append_nil] at hr hv
    rcases hside with rfl | rfl
    · cases hv
      simpa [Replacement.expr, Replacement.isConstant] using hr
    · simp only [Replacement.expr, run, Traced.bind_eq_some, Traced.answer_eq_some]
      exact ⟨b, tb, [], hr, ⟨hv, rfl⟩, by simp [Replacement.isConstant]⟩

/-- **What takes the place of `||`, `&&` and `??`** evaluates as they do. -/
theorem run_shortcut (hw : Replaces op l r w) (hop : op.isArithmetic = false)
    (hrun : run N (.binary op l r t) h = some (v, u)) :
    run N (w.expr l r t) h = some (v, u) := by
  obtain ⟨a, ta, hl, hrest⟩ := run_binary_eq_some.mp hrun
  cases hw with
  | false_or hz | true_and hz =>
    cases eq_bool_of_isBool hz
    cases hl
    rcases hrest with ⟨-, b, tb, hr, hv, rfl⟩ | ⟨hneed, -⟩
    · obtain ⟨y, c, rfl, hc, rfl⟩ := Meaning.binary_bool_left rfl hv
      cases hc
      simpa [Replacement.expr] using hr
    · cases hneed
  | or_false hz | and_true hz =>
    cases eq_bool_of_isBool hz
    rcases hrest with ⟨-, b, tb, hr, hv, rfl⟩ | ⟨-, hv, rfl⟩
    · cases hr
      obtain ⟨x, c, rfl, hc, rfl⟩ := Meaning.binary_bool_right rfl hv
      cases hc
      simpa [Replacement.expr] using hl
    · cases hv
      exact hl
  | true_or hz | false_and hz =>
    cases eq_bool_of_isBool hz
    cases hl
    rcases hrest with ⟨hneed, -⟩ | ⟨-, hv, rfl⟩
    · cases hneed
    · cases hv
      rfl
  | absent_coalesce hz =>
    obtain ⟨s, rfl⟩ := eq_absent_of_isAbsent hz
    cases hl
    rcases hrest with ⟨-, b, tb, hr, hv, rfl⟩ | ⟨hneed, -⟩
    · cases hv
      simpa [Replacement.expr] using hr
    · cases hneed
  | _ => cases hop

/-! ## The other rules -/

/-- A conditional on a literal evaluates as the arm that is left of it. -/
theorem run_simplifyConditional (test yes no : Expr) (t : Ty) :
    run N (simplifyConditional test yes no t) = run N (.conditional test yes no t) := by
  unfold simplifyConditional
  split_ifs with hyes hno
  · cases eq_bool_of_isBool hyes
    rw [run, run, Traced.pure_bind, Value.choose]
  · cases eq_bool_of_isBool hno
    rw [run, run, Traced.pure_bind, Value.choose]
  · rfl

/-- An operator on a literal, or on an empty array, evaluates as what is left of it. -/
theorem run_simplifyUnary (op : UnaryOp) (e : Expr) (t : Ty) :
    run N (simplifyUnary op e t) = run N (.unary op e t) := by
  unfold simplifyUnary
  split
  · rename_i c hc
    unfold foldUnary? at hc
    split at hc
    · rename_i a ha
      cases eq_literal_of_literal? ha
      funext k
      rw [run, run, run, Traced.pure_bind]
      simp only [Traced.answer, Meaning.unary_of_fold (N k) hc]
      rfl
    · split_ifs at hc with hlen
      cases hc
      simp only [Bool.and_eq_true, decide_eq_true_eq] at hlen
      obtain ⟨rfl, he⟩ := hlen
      obtain ⟨s, rfl⟩ := eq_emptyArray_of_isEmptyArray he
      funext k
      symm
      rw [run, run]
      exact Traced.bind_eq_some.mpr ⟨(N k).emptyArray s, [], [], rfl,
        Traced.answer_eq_some.mpr ⟨by rw [List.append_nil]; exact (N k).length_emptyArray s, rfl⟩,
        rfl⟩
  · rfl

/-- A literal that settles the operator is the folded result. -/
theorem eq_of_needsRight_eq_false {x y c : Literal} (hc : Literal.foldBinary? op x y = some c)
    (hneed : Meaning.needsRight op (.literal x : Value α) = false) : c = x := by
  cases op with
  | or | and =>
    cases x with
    | bool x =>
      cases y with
      | bool y =>
        cases x <;> cases hneed
        cases hc
        rfl
      | int | float | string => cases hc
    | int | float | string => cases hneed
  | coalesce => cases x <;> cases y <;> cases hc
  | _ => cases hneed

/-- An operator on literals evaluates as its folded result. -/
theorem run_fold {x y c : Literal} (hc : Literal.foldBinary? op x y = some c) :
    run N (.literal c) = run N (.binary op (.literal x) (.literal y) t) := by
  have hop : op ≠ .coalesce := by
    rintro rfl
    cases x <;> cases y <;> cases hc
  funext k
  symm
  refine run_binary_eq_some.mpr ⟨.literal x, [], rfl, ?_⟩
  cases hneed : Meaning.needsRight op (.literal x : Value α) with
  | true =>
    refine .inl ⟨rfl, .literal y, [], rfl, ?_, rfl⟩
    rw [Meaning.both, if_neg hop, Meaning.binary_of_fold _ hc]
  | false =>
    refine .inr ⟨rfl, ?_, rfl⟩
    rw [Meaning.alone, if_neg hop, eq_of_needsRight_eq_false hc hneed]

end Expr

end Typed

end Quill
