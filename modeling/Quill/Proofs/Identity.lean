import Quill.Proofs.Nodes

/-!
# The identities of the operators

An operator with an operand that is neutral for it, or that settles its result, gives way to one of
its operands, to the opposite of its right operand, or to a literal. `Replaces` is the table of the
identities. Where several apply, `replacement?` takes the first, and the expression it stands for is
the one that simplification puts in the place of the operator.

Results:
* `simplifyBinary_literals`, `simplifyBinary_of_literal?_eq_none`: what an operator becomes, with
  two literals as operands and otherwise.
* `replaces_of_replacement?`, `replacement?_ne_none`: `replacement?` and the table agree.
-/

namespace Quill.Typed.Expr

/-! ## Telling literals -/

/-- Either both operands are literals, or one is not. -/
theorem both_literals_or (l r : Expr) :
    (∃ a b, l = .literal a ∧ r = .literal b) ∨ l.literal? = none ∨ r.literal? = none := by
  cases hl : l.literal? with
  | none => exact .inr (.inl rfl)
  | some a =>
    cases hr : r.literal? with
    | none => exact .inr (.inr rfl)
    | some b => exact .inl ⟨a, b, eq_literal_of_literal? hl, eq_literal_of_literal? hr⟩

theorem eq_literal_of_isZero {e : Expr} (h : e.isZero = true) : ∃ c, e = .literal c := by
  cases e with
  | literal c => exact ⟨c, rfl⟩
  | _ => cases h

theorem eq_literal_of_isOne {e : Expr} (h : e.isOne = true) : ∃ c, e = .literal c := by
  cases e with
  | literal c => exact ⟨c, rfl⟩
  | _ => cases h

theorem zeroOf_eq_literal (t : Ty) : ∃ c, zeroOf t = .literal c := by
  unfold zeroOf
  split_ifs
  · exact ⟨_, rfl⟩
  · exact ⟨_, rfl⟩

theorem oneOf_eq_literal (t : Ty) : ∃ c, oneOf t = .literal c := by
  unfold oneOf
  split_ifs
  · exact ⟨_, rfl⟩
  · exact ⟨_, rfl⟩

/-! ## The table -/

/-- What takes the place of an operator. -/
inductive Replacement where
  | left
  | right
  | opposite
  | zero
  | one
  | truth (b : Bool)
deriving DecidableEq

/-- The replacement of `l op r` of type `t` as an expression. -/
def Replacement.expr (l r : Expr) (t : Ty) : Replacement → Expr
  | .left => l
  | .right => r
  | .opposite => .unary .negate r t
  | .zero => zeroOf t
  | .one => oneOf t
  | .truth b => .bool b

/-- The identities: which operand is neutral, or settles the result, and what is left then. -/
inductive Replaces : BinaryOp → Expr → Expr → Replacement → Prop
  | add_zero {l r} (h : r.isZero = true) : Replaces .add l r .left
  | zero_add {l r} (h : l.isZero = true) : Replaces .add l r .right
  | subtract_zero {l r} (h : r.isZero = true) : Replaces .subtract l r .left
  | zero_subtract {l r} (h : l.isZero = true) : Replaces .subtract l r .opposite
  | multiply_one {l r} (h : r.isOne = true) : Replaces .multiply l r .left
  | one_multiply {l r} (h : l.isOne = true) : Replaces .multiply l r .right
  | zero_multiply {l r} (h : l.isZero = true) : Replaces .multiply l r .zero
  | multiply_zero {l r} (h : r.isZero = true) : Replaces .multiply l r .zero
  | divide_one {l r} (h : r.isOne = true) : Replaces .divide l r .left
  | zero_divide {l r} (h : l.isZero = true) : Replaces .divide l r .zero
  | one_power {l r} (h : l.isOne = true) : Replaces .power l r .one
  | power_zero {l r} (h : r.isZero = true) : Replaces .power l r .one
  | false_or {l r} (h : l.isBool false = true) : Replaces .or l r .right
  | or_false {l r} (h : r.isBool false = true) : Replaces .or l r .left
  | true_or {l r} (h : l.isBool true = true) : Replaces .or l r (.truth true)
  | true_and {l r} (h : l.isBool true = true) : Replaces .and l r .right
  | and_true {l r} (h : r.isBool true = true) : Replaces .and l r .left
  | false_and {l r} (h : l.isBool false = true) : Replaces .and l r (.truth false)
  | absent_coalesce {l r} (h : l.isAbsent = true) : Replaces .coalesce l r .right

/-- The first identity that applies to `l op r`. -/
def replacement? (op : BinaryOp) (l r : Expr) : Option Replacement :=
  match op with
  | .add => if r.isZero then some .left else if l.isZero then some .right else none
  | .subtract => if r.isZero then some .left else if l.isZero then some .opposite else none
  | .multiply =>
    if r.isOne then some .left
    else if l.isOne then some .right
    else if l.isZero || r.isZero then some .zero
    else none
  | .divide => if r.isOne then some .left else if l.isZero then some .zero else none
  | .power => if l.isOne || r.isZero then some .one else none
  | .or =>
    if l.isBool false then some .right
    else if r.isBool false then some .left
    else if l.isBool true then some (.truth true)
    else none
  | .and =>
    if l.isBool true then some .right
    else if r.isBool true then some .left
    else if l.isBool false then some (.truth false)
    else none
  | .coalesce => if l.isAbsent then some .right else none
  | _ => none

variable {op : BinaryOp} {l r : Expr} {w : Replacement}

/-- Simplification applies the first identity that there is. -/
theorem identity?_eq (op : BinaryOp) (l r : Expr) (t : Ty) :
    identity? op l r t = (replacement? op l r).map (·.expr l r t) := by
  cases op with
  | add | subtract | multiply | divide | power | or | and | coalesce =>
    simp only [identity?, replacement?]
    split_ifs <;> rfl
  | _ => rfl

/-- Two literals are folded, or the operator is left alone. -/
theorem simplifyBinary_literals (op : BinaryOp) (a b : Literal) (t : Ty) :
    simplifyBinary op (.literal a) (.literal b) t =
      match Literal.foldBinary? op a b with
      | some c => .literal c
      | none => .binary op (.literal a) (.literal b) t := rfl

/-- Where one operand is no literal, an identity is applied if there is one. -/
theorem simplifyBinary_of_literal?_eq_none (h : l.literal? = none ∨ r.literal? = none) (t : Ty) :
    simplifyBinary op l r t =
      ((replacement? op l r).map (·.expr l r t)).getD (.binary op l r t) := by
  rw [← identity?_eq, simplifyBinary]
  split
  · rename_i ha hb
    rcases h with h | h
    · rw [h] at ha; cases ha
    · rw [h] at hb; cases hb
  · rfl

/-- What is put in the place of an operator is what one of the identities leaves. -/
theorem replaces_of_replacement? (h : replacement? op l r = some w) : Replaces op l r w := by
  cases op with
  | add =>
    simp only [replacement?] at h
    split_ifs at h with hr hl <;> cases h
    · exact .add_zero hr
    · exact .zero_add hl
  | subtract =>
    simp only [replacement?] at h
    split_ifs at h with hr hl <;> cases h
    · exact .subtract_zero hr
    · exact .zero_subtract hl
  | multiply =>
    simp only [replacement?] at h
    split_ifs at h with hr hl hz <;> cases h
    · exact .multiply_one hr
    · exact .one_multiply hl
    · rcases Bool.or_eq_true_iff.mp hz with hz | hz
      · exact .zero_multiply hz
      · exact .multiply_zero hz
  | divide =>
    simp only [replacement?] at h
    split_ifs at h with hr hl <;> cases h
    · exact .divide_one hr
    · exact .zero_divide hl
  | power =>
    simp only [replacement?] at h
    split_ifs at h with hz
    cases h
    rcases Bool.or_eq_true_iff.mp hz with hz | hz
    · exact .one_power hz
    · exact .power_zero hz
  | or =>
    simp only [replacement?] at h
    split_ifs at h with hf hr ht <;> cases h
    · exact .false_or hf
    · exact .or_false hr
    · exact .true_or ht
  | and =>
    simp only [replacement?] at h
    split_ifs at h with ht hr hf <;> cases h
    · exact .true_and ht
    · exact .and_true hr
    · exact .false_and hf
  | coalesce =>
    simp only [replacement?] at h
    split_ifs at h with ha
    cases h
    exact .absent_coalesce ha
  | _ => cases h

/-- Where one of the identities applies, something is put in the place of the operator. -/
theorem replacement?_ne_none (h : Replaces op l r w) : replacement? op l r ≠ none := by
  cases h <;> simp only [replacement?] <;> split_ifs <;> simp_all

end Quill.Typed.Expr
