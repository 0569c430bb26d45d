import Quill.Library
import Quill.Proofs.Fitting
import Quill.Proofs.Identity
import Quill.Proofs.Rules

/-!
# Simplification narrows types

What is left of an expression that obeys the rules has a type from which assignability leads, step
by step, to the type the expression had. One step does not do: an operand of `??` may itself have
been narrowed. The basic types other than `any` and the structs are kept, since nothing else is
assignable to them.

Only where `??` gives way to its right operand is a step made, and the type of the `??` is where it
leads. `Ty.NarrowsIn P` bounds the types that are reached so; without `any` among them, the steps
come to one. `Expr.LoosensIn P` says which types those are for an expression: those of the `??` that
give way to what is left of the expression, and not of any `??` further inside.

Results:
* `Expr.narrowsIn_simplify`, `Expr.narrows_simplify`: simplification narrows.
* `Ty.Narrows.eq_basic`, `Ty.Narrows.eq_struct`: the types that are kept.
* `Ty.NarrowsIn.eq_or_fits`: steps that come to one.
* `Check.narrows_of_expr`: all of it, for checked expressions.
-/

namespace Quill

/-! ## Narrowing -/

/-- Assignability leads from the one type to the other, step by step. -/
def Ty.Narrows : Ty → Ty → Prop := Relation.ReflTransGen fun a b => a.assignable b = true

/-- Such steps, if each of them leads to a type with the property. -/
def Ty.NarrowsIn (P : Ty → Prop) : Ty → Ty → Prop :=
  Relation.ReflTransGen fun a b => a.assignable b = true ∧ P b

namespace Ty.Narrows

variable {a : Ty}

theorem of_fits {b : Ty} (h : a.Fits b) : Narrows a b := Relation.ReflTransGen.single h

/-- To a basic type other than `any`, only the type itself leads. -/
theorem eq_basic {c : Basic} (hc : c ≠ .any) (h : Narrows a (.basic c)) : a = .basic c := by
  induction h using Relation.ReflTransGen.head_induction_on with
  | refl => rfl
  | head hstep _ ih =>
    subst ih
    exact eq_of_assignable_basic hc hstep

/-- To a struct, only the struct itself leads. -/
theorem eq_struct {id : StructId} (h : Narrows a (.struct id)) : a = .struct id := by
  induction h using Relation.ReflTransGen.head_induction_on with
  | refl => rfl
  | head hstep _ ih =>
    subst ih
    exact eq_of_assignable_struct hstep

/-- To a function, only functions lead; what they take is wider. -/
theorem exists_function {ps : List Ty} {r : Ty} (h : Narrows a (.function ps r)) :
    ∃ qs s, a = .function qs s ∧ List.Forall₂ Narrows ps qs := by
  induction h using Relation.ReflTransGen.head_induction_on with
  | refl => exact ⟨ps, r, rfl, List.forall₂_same.mpr fun _ _ => .refl⟩
  | head hstep _ ih =>
    obtain ⟨qs, s, rfl, hqs⟩ := ih
    obtain ⟨ts, u, rfl, hts⟩ := exists_function_of_fits hstep
    refine ⟨ts, u, rfl, forall₂_trans (fun _ _ _ _ _ _ hab hbc => hab.trans hbc) hqs ?_⟩
    exact hts.imp fun _ _ => of_fits

end Ty.Narrows

namespace Ty.NarrowsIn

variable {P : Ty → Prop} {a b : Ty}

theorem refl (a : Ty) : NarrowsIn P a a := Relation.ReflTransGen.refl

theorem narrows (h : NarrowsIn P a b) : Narrows a b :=
  Relation.ReflTransGen.mono (fun _ _ => And.left) _ _ h

end Ty.NarrowsIn

/-! ## The types of folded literals -/

/-- The type of the result of an operator other than `??`, given the type of the left operand. -/
def BinaryOp.resultType (op : BinaryOp) (left : Ty) : Ty :=
  match op with
  | .or | .and | .less | .lessEquals | .equals | .notEquals | .greaterEquals | .greater => .bool
  | _ => left

theorem Ty.eq_basic_of_isNumericOrString {t : Ty} (h : t.isNumericOrString = true) :
    ∃ c, c ≠ Basic.any ∧ t = .basic c := by
  simp only [isNumericOrString, Bool.or_eq_true, decide_eq_true_eq] at h
  rcases h with (rfl | rfl) | rfl
  · exact ⟨.int, nofun, rfl⟩
  · exact ⟨.float, nofun, rfl⟩
  · exact ⟨.string, nofun, rfl⟩

theorem Ty.Narrows.eq_of_isNumericOrString {a t : Ty} (ht : t.isNumericOrString = true)
    (h : a.Narrows t) : a = t := by
  obtain ⟨c, hc, rfl⟩ := eq_basic_of_isNumericOrString ht
  exact h.eq_basic hc

theorem Ty.isNumericOrString_of_isNumeric {t : Ty} (h : t.isNumeric = true) :
    t.isNumericOrString = true := by
  simp only [isNumericOrString, Bool.or_eq_true]
  exact .inl (by simpa only [isNumeric, Bool.or_eq_true] using h)

/-- The rule of an operator other than `??`: the type of the result is settled, or it is that of the
left operand, which is basic. -/
theorem BinaryOp.Accepts.resultType_eq {op : BinaryOp} {left right t : Ty}
    (h : op.Accepts left right t) (hop : op ≠ .coalesce) :
    t = op.resultType left ∧
      ((∀ s, t = op.resultType s) ∨ ∃ c, c ≠ Basic.any ∧ left = .basic c) := by
  cases op with
  | coalesce => exact absurd rfl hop
  | or | and => exact ⟨h.2.2, .inl fun _ => h.2.2⟩
  | less | lessEquals | greaterEquals | greater => exact ⟨h.2.2, .inl fun _ => h.2.2⟩
  | equals | notEquals => exact ⟨h.2, .inl fun _ => h.2⟩
  | bitOr | bitXor | bitAnd | shiftLeft | shiftRight =>
    obtain ⟨rfl, -, rfl⟩ := h
    exact ⟨rfl, .inr ⟨.int, nofun, rfl⟩⟩
  | add =>
    obtain ⟨hl, -, rfl⟩ := h
    exact ⟨rfl, .inr (Ty.eq_basic_of_isNumericOrString hl)⟩
  | subtract | multiply | divide | remainder | power =>
    obtain ⟨hl, -, rfl⟩ := h
    exact ⟨rfl, .inr (Ty.eq_basic_of_isNumericOrString (Ty.isNumericOrString_of_isNumeric hl))⟩

namespace Typed.Literal

variable {op : BinaryOp} {c : Literal}

theorem type_compare? {lt eq gt : Bool} (h : compare? op lt eq gt = some c) (t : Ty) :
    c.type = op.resultType t := by
  cases op <;> cases h <;> rfl

theorem type_number? {x : Float} (h : number? x = some c) : c.type = .float := by
  unfold number? at h
  split at h
  · cases h
  · cases h
    rfl

theorem type_foldInt? {a b : Int64} (h : foldInt? op a b = some c) :
    c.type = op.resultType .int := by
  cases op with
  | add | subtract | multiply | divide | remainder | power | shiftLeft | shiftRight =>
    obtain ⟨_, -, rfl⟩ := Option.map_eq_some_iff.mp h
    rfl
  | bitOr | bitXor | bitAnd => cases h; rfl
  | _ =>
    simp only [foldInt?] at h
    exact type_compare? h _

theorem type_foldFloat? {a b : Float} (h : foldFloat? op a b = some c) :
    c.type = op.resultType .float := by
  cases op with
  | add | subtract | multiply | divide | remainder | power => exact type_number? h
  | _ =>
    simp only [foldFloat?] at h
    exact type_compare? h _

theorem type_foldString? {a b : String} (h : foldString? op a b = some c) :
    c.type = op.resultType .string := by
  cases op with
  | add => cases h; rfl
  | _ =>
    simp only [foldString?] at h
    exact type_compare? h _

theorem type_foldBool? {a b : Bool} (h : foldBool? op a b = some c) :
    c.type = op.resultType .bool := by
  cases op <;> cases h <;> rfl

/-- The type of the result of an operator on two literals. -/
theorem type_foldBinary? {a b : Literal} (h : foldBinary? op a b = some c) :
    c.type = op.resultType a.type := by
  unfold foldBinary? at h
  split at h
  · exact type_foldInt? h
  · exact type_foldFloat? h
  · exact type_foldString? h
  · exact type_foldBool? h
  · cases h

/-- The type of the result of an operator on one literal is the type of the literal. -/
theorem type_foldUnary? {op : UnaryOp} {a : Literal} (h : foldUnary? op a = some c) :
    c.type = a.type := by
  unfold foldUnary? at h
  split at h
  · obtain ⟨_, -, rfl⟩ := Option.map_eq_some_iff.mp h
    rfl
  · cases h; rfl
  · cases h; rfl
  · cases h

end Typed.Literal

/-! ## Simplified expressions -/

namespace Typed.Expr

variable {op : BinaryOp} {l r l' r' : Expr} {t : Ty} {P : Ty → Prop}

theorem type_zeroOf (h : t.isNumeric = true) : (zeroOf t).type = t := by
  simp only [Ty.isNumeric, Bool.or_eq_true, decide_eq_true_eq] at h
  rcases h with rfl | rfl
  · rfl
  · rfl

theorem type_oneOf (h : t.isNumeric = true) : (oneOf t).type = t := by
  simp only [Ty.isNumeric, Bool.or_eq_true, decide_eq_true_eq] at h
  rcases h with rfl | rfl
  · rfl
  · rfl

/-- What takes the place of an operator other than `??` that obeys its rule has the type of the
operator: there, operands that may be left have basic types. -/
theorem type_replacement {w : Replacement} (hop : op.Accepts l.type r.type t)
    (hl : l'.type.Narrows l.type) (hr : r'.type.Narrows r.type) (hne : op ≠ .coalesce)
    (h : Replaces op l' r' w) : (w.expr l' r' t).type = t := by
  cases h with
  | add_zero => rw [Replacement.expr, hl.eq_of_isNumericOrString hop.1, hop.2.2]
  | zero_add =>
    rw [hop.2.1] at hr
    rw [Replacement.expr, hr.eq_of_isNumericOrString hop.1, hop.2.2]
  | subtract_zero | multiply_one | divide_one =>
    rw [Replacement.expr, hl.eq_of_isNumericOrString (Ty.isNumericOrString_of_isNumeric hop.1),
      hop.2.2]
  | one_multiply =>
    rw [hop.2.1] at hr
    rw [Replacement.expr, hr.eq_of_isNumericOrString (Ty.isNumericOrString_of_isNumeric hop.1),
      hop.2.2]
  | zero_subtract => rfl
  | zero_multiply | multiply_zero | zero_divide =>
    exact type_zeroOf (hop.2.2 ▸ hop.1)
  | one_power | power_zero => exact type_oneOf (hop.2.2 ▸ hop.1)
  | false_or | true_and =>
    rw [hop.2.1] at hr
    have hbool : r'.type = .bool := hr.eq_basic nofun
    rw [Replacement.expr, hbool, hop.2.2]
  | or_false | and_true =>
    rw [hop.1] at hl
    have hbool : l'.type = .bool := hl.eq_basic nofun
    rw [Replacement.expr, hbool, hop.2.2]
  | true_or | false_and => exact hop.2.2.symm
  | absent_coalesce => exact absurd rfl hne

/-- The result of folding the simplified operands has the type of the operator. -/
theorem type_of_foldBinary? {a b c : Literal} (hop : op.Accepts l.type r.type t)
    (hl : a.type.Narrows l.type) (hc : Literal.foldBinary? op a b = some c) : c.type = t := by
  have hne : op ≠ .coalesce := by
    rintro rfl
    cases a <;> cases b <;> cases hc
  have hct : c.type = op.resultType a.type := Literal.type_foldBinary? hc
  obtain ⟨ht, hs | ⟨k, hk, hlk⟩⟩ := hop.resultType_eq hne
  · rw [hct, ← hs]
  · rw [hlk] at hl
    rw [hct, hl.eq_basic hk, ht, hlk]

/-- Only where `??` gives way to its right operand is the type narrowed. -/
theorem narrowsIn_simplifyBinary (hop : op.Accepts l.type r.type t)
    (hl : l'.type.Narrows l.type) (hr : r'.type.Narrows r.type)
    (ht : op = .coalesce → l'.isAbsent = true → r'.type.NarrowsIn P r.type ∧ P t) :
    (simplifyBinary op l' r' t).type.NarrowsIn P t := by
  rcases both_literals_or l' r' with ⟨a, b, rfl, rfl⟩ | hlit
  · rw [simplifyBinary_literals]
    cases hc : Literal.foldBinary? op a b with
    | none => exact .refl t
    | some c => exact type_of_foldBinary? hop hl hc ▸ .refl _
  · rw [simplifyBinary_of_literal?_eq_none hlit]
    cases hw : replacement? op l' r' with
    | none => exact .refl t
    | some w =>
      have hreplaces := replaces_of_replacement? hw
      by_cases hne : op = .coalesce
      · subst hne
        cases hreplaces with
        | absent_coalesce habsent =>
          obtain ⟨hright, hP⟩ := ht rfl habsent
          exact hright.tail ⟨hop.2, hP⟩
      · change (w.expr l' r' t).type.NarrowsIn P t
        rw [type_replacement hop hl hr hne hreplaces]
        exact .refl t

/-- The result of folding a simplified operand has the type of the operator. -/
theorem type_of_foldUnary? {op : UnaryOp} {c : Literal} (hop : op.Accepts l.type t)
    (hl : l'.type.Narrows l.type) (hc : foldUnary? op l' = some c) : c.type = t := by
  unfold foldUnary? at hc
  split at hc
  · rename_i a ha
    rw [eq_literal_of_literal? ha] at hl
    have hct : c.type = a.type := Literal.type_foldUnary? hc
    cases op with
    | negate =>
      obtain ⟨k, hk, hlk⟩ :=
        Ty.eq_basic_of_isNumericOrString (Ty.isNumericOrString_of_isNumeric hop.1)
      rw [hlk] at hl
      rw [hct, hop.2, hlk]
      exact hl.eq_basic hk
    | not =>
      rw [hop.1] at hl
      rw [hct, hop.2]
      exact hl.eq_basic nofun
    | length | some => simp [Literal.foldUnary?] at hc
  · split_ifs at hc with hlen
    cases hc
    simp only [Bool.and_eq_true, decide_eq_true_eq] at hlen
    obtain ⟨rfl, -⟩ := hlen
    exact hop.2.symm

theorem narrowsIn_simplifyUnary {op : UnaryOp} (hop : op.Accepts l.type t)
    (hl : l'.type.Narrows l.type) : (simplifyUnary op l' t).type.NarrowsIn P t := by
  unfold simplifyUnary
  split
  · rename_i c hc
    exact type_of_foldUnary? hop hl hc ▸ .refl _
  · exact .refl t

/-- Each `??` that gives way to what is left of the expression has a type with the property. -/
def LoosensIn (P : Ty → Prop) : Expr → Prop
  | .conditional test yes no _ =>
    (test.simplify.isBool true = true → yes.LoosensIn P) ∧
      (test.simplify.isBool false = true → no.LoosensIn P)
  | .binary .coalesce left right t => left.simplify.isAbsent = true → right.LoosensIn P ∧ P t
  | _ => True

theorem loosensIn_true (e : Expr) : e.LoosensIn fun _ => True := by
  induction e using Expr.induction with
  | conditional test yes no t _ hyes hno => exact ⟨fun _ => hyes, fun _ => hno⟩
  | binary op left right t _ hright =>
    cases op with
    | coalesce => exact fun _ => ⟨hright, trivial⟩
    | _ => exact trivial
  | _ => exact trivial

/-- **Simplification narrows**, through the types of the `??` that give way. -/
theorem narrowsIn_simplify {e : Expr} (h : e.Everywhere Ruled) (hP : e.LoosensIn P) :
    e.simplify.type.NarrowsIn P e.type := by
  induction e using Expr.induction generalizing P with
  | conditional test yes no t _ hyes hno =>
    obtain ⟨-, hyt, hnt⟩ := h.here
    rw [simplify, simplifyConditional]
    split_ifs with htrue hfalse
    · exact hyt ▸ hyes (h.inside yes (by simp [parts])) (hP.1 htrue)
    · exact hnt ▸ hno (h.inside no (by simp [parts])) (hP.2 hfalse)
    · exact .refl t
  | binary op left right t hleft hright =>
    have hl := hleft (h.inside left (by simp [parts])) left.loosensIn_true
    have hr := h.inside right (by simp [parts])
    rw [simplify]
    refine narrowsIn_simplifyBinary h.here hl.narrows
      (hright hr right.loosensIn_true).narrows ?_
    rintro rfl habsent
    obtain ⟨hloosens, ht⟩ := hP habsent
    exact ⟨hright hr hloosens, ht⟩
  | unary op operand t ih =>
    have ih := ih (h.inside operand (by simp [parts])) operand.loosensIn_true
    rw [simplify]
    exact narrowsIn_simplifyUnary h.here ih.narrows
  | _ => exact .refl _

/-- **Simplification narrows.** -/
theorem narrows_simplify {e : Expr} (h : e.Everywhere Ruled) : e.simplify.type.Narrows e.type :=
  (narrowsIn_simplify h e.loosensIn_true).narrows

end Typed.Expr

/-! ## Checked expressions -/

namespace Check

/-- **Simplification keeps the type it must.** It narrows the type of a checked expression, and
leaves it as it is when that is a basic type other than `any` or a struct. -/
theorem narrows_of_expr {env : Env} {a : Syntax.Expr} {e : Typed.Expr} (h : expr env a = .ok e) :
    e.simplify.type.Narrows e.type ∧
      (∀ c : Basic, c ≠ .any → e.type = .basic c → e.simplify.type = e.type) ∧
      ∀ id : StructId, e.type = .struct id → e.simplify.type = e.type := by
  have hnarrows : e.simplify.type.Narrows e.type := Typed.Expr.narrows_simplify (expr_ruled env h)
  refine ⟨hnarrows, fun c hc htype => ?_, fun id htype => ?_⟩
  · rw [htype] at hnarrows ⊢
    exact hnarrows.eq_basic hc
  · rw [htype] at hnarrows ⊢
    exact hnarrows.eq_struct

/-- `no any ?? (no int ?? 1)`, of type `any`, and its operand `no int ?? 1`, of type `int`: of both
the integer is left. -/
theorem narrows_of_expr_coalesce :
    let env : Env := ⟨Library.standard.scopes, ⟨[]⟩⟩
    let inner : Syntax.Expr :=
      .binary .coalesce (.absent (.named "int" default) default) (.int 1 default) default
    let outer : Syntax.Expr :=
      .binary .coalesce (.absent (.named "any" default) default) inner default
    let operand : Typed.Expr := .binary .coalesce (.absent (.optional .int)) (.int 1) .int
    let whole : Typed.Expr := .binary .coalesce (.absent (.optional .any)) operand .any
    expr env inner = .ok operand ∧ operand.simplify.type = .int ∧
      expr env outer = .ok whole ∧ whole.simplify = .int 1 ∧
      whole.simplify.type.Narrows .any := by
  intro env inner outer operand whole
  have hinner : expr env inner = .ok operand := by cbv
  have houter : expr env outer = .ok whole := by cbv
  exact ⟨hinner, (narrows_of_expr hinner).2.1 .int (by decide) rfl, houter, by cbv,
    (narrows_of_expr houter).1⟩

end Check

end Quill
