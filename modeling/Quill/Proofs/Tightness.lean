import Mathlib
import Quill.Operator
import Quill.Parse.Grammar

/-!
# How tightly operators hold their operands

An operator of power `p` may have an operand of power `q` without parentheses if `q` is tighter, and
on one side also if the two are equal: on the right if operators of this power group to the right,
and on the left otherwise. `Power.TakesLeft` and `Power.TakesRight` say this.

A parser sees it from another side. It reads the right operand of an operator at `p.right`, and goes
on with what it has read as long as the next operator is tighter than the power it reads at.

Results:
* `takesRight_iff`, `takesLeft_iff`: the two views agree.
* `standardExprFollow_mark`, `exprFollow_cases`: the table of continuations.
-/

namespace Quill

namespace Power

instance : LT Power := ⟨fun p q => p.rank < q.rank⟩

instance (p q : Power) : Decidable (p < q) := inferInstanceAs (Decidable (p.rank < q.rank))

variable {p q r : Power}

theorem lt_iff_not_le : p < q ↔ ¬ q ≤ p := Nat.not_le.symm

theorem le_trans (hpq : p ≤ q) (hqr : q ≤ r) : p ≤ r := Nat.le_trans hpq hqr

theorem lt_of_lt_of_le (hpq : p < q) (hqr : q ≤ r) : p < r := Nat.lt_of_lt_of_le hpq hqr

theorem le_of_lt (h : p < q) : p ≤ q := Nat.le_of_lt h

/-- Whether operators of the power group to the right: `?:`, `??` and `**`. -/
def groupsRight : Power → Bool
  | .conditional | .coalesce | .exponent => true
  | _ => false

/-- The power at which the right operand of an operator is read. -/
def right (p : Power) : Power := if p.groupsRight then p.lower else p

/-- An operator of the power may have a left operand of the other power without parentheses. -/
def TakesLeft (p q : Power) : Prop := if p.groupsRight then p < q else p ≤ q

/-- An operator of the power may have a right operand of the other power without parentheses. -/
def TakesRight (p q : Power) : Prop := if p.groupsRight then p ≤ q else p < q

instance : Decidable (TakesLeft p q) := by unfold TakesLeft; infer_instance

instance : Decidable (TakesRight p q) := by unfold TakesRight; infer_instance

/-- A right operand is one that is tighter than the power at which it is read. -/
theorem takesRight_iff : p.TakesRight q ↔ p.right < q := by
  cases p <;> cases q <;> decide

/-- A left operand is one behind which its own operator does not take the next one. -/
theorem takesLeft_iff : p.TakesLeft q ↔ p ≤ q.right := by
  cases p <;> cases q <;> decide

theorem weakest_le (p : Power) : .weakest ≤ p := Nat.zero_le _

theorem le_primary (p : Power) : p ≤ .primary := by
  cases p <;> decide

theorem le_right_of_lt (h : p < q) : p ≤ q.right := by
  revert h
  cases p <;> cases q <;> decide

theorem takesRight_of_lt (h : p < q) : p.TakesRight q := by
  unfold TakesRight
  split_ifs
  · exact le_of_lt h
  · exact h

/-- What the right operand of an operator leaves alone, the operator does. -/
theorem TakesRight.right_le (h : p.TakesRight q) : p.right ≤ q.right :=
  le_right_of_lt (takesRight_iff.mp h)

theorem TakesLeft.le (h : p.TakesLeft q) : p ≤ q := by
  unfold TakesLeft at h
  split_ifs at h
  · exact le_of_lt h
  · exact h

end Power

/-! ## The table of continuations -/

/-- How tightly a binary operator holds its operands. -/
def BinaryOp.tightness : BinaryOp → Power
  | .coalesce => .coalesce
  | .or => .logicalOr
  | .and => .logicalAnd
  | .bitOr => .bitOr
  | .bitXor => .bitXor
  | .bitAnd => .bitAnd
  | .less | .lessEquals | .equals | .notEquals | .greaterEquals | .greater => .relational
  | .shiftLeft | .shiftRight => .shift
  | .add | .subtract => .additive
  | .multiply | .divide | .remainder => .multiplicative
  | .power => .exponent

namespace BinaryOp

variable (op : BinaryOp)

theorem groupsRight_tightness : op.tightness.groupsRight = op.groupsRight := by
  cases op <;> rfl

theorem tightness_lt_unary : op.tightness < .unary := by
  cases op <;> decide

theorem ofKind?_mark : ofKind? (.mark op.mark) = some op := by
  cases op <;> rfl

theorem standardExprFollow_mark :
    Grammar.standardExprFollow (.mark op.mark) = some (op.tightness, .binary) := by
  cases op <;> rfl

end BinaryOp

theorem UnaryOp.ofKind?_kind (op : UnaryOp) : ofKind? op.kind = Option.some op := by
  cases op <;> rfl

/-- **Which tokens continue an expression**, how tightly, and how. -/
theorem exprFollow_cases {kind : TokenKind} {p : Power} {form : ExprFollow}
    (h : Grammar.standardExprFollow kind = some (p, form)) :
    (∃ op : BinaryOp, kind = .mark op.mark ∧ p = op.tightness ∧ form = .binary) ∨
    (kind = .mark .question ∧ p = .conditional ∧ form = .conditional) ∨
    (kind = .mark .openParen ∧ p = .call ∧ form = .call) ∨
    (kind = .mark .openBracket ∧ p = .call ∧ form = .subscript) ∨
    ((kind = .mark .dot ∨ kind = .mark .questionDot) ∧ p = .call ∧ form = .member) := by
  cases kind with
  | mark m =>
    cases hop : BinaryOp.ofKind? (.mark m) with
    | some op =>
      have hm : TokenKind.mark m = .mark op.mark := by simpa using List.find?_some hop
      rw [hm, op.standardExprFollow_mark] at h
      cases h
      exact .inl ⟨op, hm, rfl, rfl⟩
    | none =>
      cases m with
      | question => cases h; exact .inr (.inl ⟨rfl, rfl, rfl⟩)
      | openParen => cases h; exact .inr (.inr (.inl ⟨rfl, rfl, rfl⟩))
      | openBracket => cases h; exact .inr (.inr (.inr (.inl ⟨rfl, rfl, rfl⟩)))
      | dot => cases h; exact .inr (.inr (.inr (.inr ⟨.inl rfl, rfl, rfl⟩)))
      | questionDot => cases h; exact .inr (.inr (.inr (.inr ⟨.inr rfl, rfl, rfl⟩)))
      | _ => cases hop <;> cases h
  | _ => cases h

theorem exprFollow_le_call {kind : TokenKind} {p : Power} {form : ExprFollow}
    (h : Grammar.standardExprFollow kind = some (p, form)) : p ≤ .call := by
  rcases exprFollow_cases h with ⟨op, -, rfl, -⟩ | ⟨-, rfl, -⟩ | ⟨-, rfl, -⟩ | ⟨-, rfl, -⟩ |
    ⟨-, rfl, -⟩
  · exact Power.le_trans (Power.le_of_lt op.tightness_lt_unary) (by decide)
  all_goals decide

theorem typeFollow_eq {kind : TokenKind} {p : Power} {form : TypeFollow}
    (h : Grammar.standardTypeFollow kind = some (p, form)) : kind = .mark .question ∧ p = .call := by
  unfold Grammar.standardTypeFollow at h
  split at h
  · cases h
    exact ⟨rfl, rfl⟩
  · cases h

/-- An operator before an operand starts an expression, and nothing else does so in this way. -/
theorem exprStart_unary {kind : TokenKind} (h : Grammar.standardExprStart kind = some .unary) :
    ∃ op : UnaryOp, kind = op.kind := by
  unfold Grammar.standardExprStart at h
  split at h <;> cases h
  · exact ⟨.negate, rfl⟩
  · exact ⟨.not, rfl⟩
  · exact ⟨.length, rfl⟩
  · exact ⟨.some, rfl⟩

end Quill
