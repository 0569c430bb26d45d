import Quill.Check.Stmt
import Quill.Proofs.Nodes
import Quill.Proofs.Sameness

/-!
# The rules that checked expressions obey

`Expr.Ruled` states the rule of one node of an expression: the types of its operands, of its
arguments and of its result. `Stmt.Ruled` states the rule of a statement. What depends on the scopes
or on the structs at hand is stated apart: `Expr.Named` says that a name stands for the node, and
`Expr.Fielded` that the fields it takes or fills are those of the struct.

Checking an expression sees to all three in every node. That is shown in one walk over the forms of
expressions; what holds of checked expressions is proved from the rules and no longer from the
checker.

Results:
* `Check.expr_checked`: each node of a checked expression obeys its rule and is found.
-/

namespace Quill

/-! ## The rules -/

/-- The operator takes operands of these types and gives a result of the last one. -/
def BinaryOp.Accepts (op : BinaryOp) (left right result : Ty) : Prop :=
  match op with
  | .coalesce => left = .sum [result, .void] ∧ right.assignable result = true
  | .or | .and => left = .bool ∧ right = .bool ∧ result = .bool
  | .bitOr | .bitXor | .bitAnd | .shiftLeft | .shiftRight =>
    left = .int ∧ right = .int ∧ result = .int
  | .less | .lessEquals | .greaterEquals | .greater =>
    left.isNumericOrString = true ∧ right = left ∧ result = .bool
  | .equals | .notEquals => right = left ∧ result = .bool
  | .add => left.isNumericOrString = true ∧ right = left ∧ result = left
  | .subtract | .multiply | .divide | .remainder | .power =>
    left.isNumeric = true ∧ right = left ∧ result = left

/-- The operator takes an operand of the first type and gives a result of the second. -/
def UnaryOp.Accepts (op : UnaryOp) (operand result : Ty) : Prop :=
  match op with
  | .negate => operand.isNumeric = true ∧ result = operand
  | .not => operand = .bool ∧ result = .bool
  | .length => operand.isArray = true ∧ result = .int
  | .some => result = .optional operand

namespace Typed

/-- The type of an array with such elements: that of arrays of their common type, or of the sum of
their types if they have none. -/
def IsArrayType (elements : List Expr) (t : Ty) : Prop :=
  (∀ s, elements ≠ [] → (∀ e ∈ elements, e.type = s) → t = .array s) ∧
    ((¬ ∃ s, elements ≠ [] ∧ ∀ e ∈ elements, e.type = s) →
      t = .array (.ofAlternatives (elements.map (·.type))))

/-- The type of a value whose field is taken. -/
def receiverType (chained : Bool) (id : StructId) : Ty :=
  if chained then .sum [.struct id, .void] else .struct id

/-- The node obeys its rule. -/
def Expr.Ruled : Expr → Prop
  | .conditional test yes no t => test.type = .bool ∧ yes.type = t ∧ no.type = t
  | .binary op left right t => op.Accepts left.type right.type t
  | .unary op operand t => op.Accepts operand.type t
  | .array elements t => IsArrayType elements t
  | .emptyArray t => ∃ element, t = .array element
  | .absent t => ∃ base, t = .optional base
  | .subscript items index t => items.type = .array t ∧ index.type = .int
  | .member object _ chained _ => ∃ id, object.type = receiverType chained id
  | .call callee args t =>
    ∃ params, callee.type = .function params t ∧
      List.Forall₂ (fun arg param => arg.type.assignable param = true) args params
  | .literal _ | .construct _ _ | .variable _ | .function _ => True

/-- A name stands in the scopes for the variable, the function or the struct of the node. -/
def Expr.Named (scopes : Scopes) : Expr → Prop
  | .variable v => ∃ name, scopes.find? name = some (.variable v)
  | .function f => ∃ name, scopes.find? name = some (.function f)
  | .construct id _ => ∃ name, scopes.find? name = some (.type (.struct id))
  | _ => True

/-- The field that the node takes is one of the struct that has it, and the arguments of a struct
that is made fit its fields. -/
def Expr.Fielded (types : TypeTable) : Expr → Prop
  | .member object field chained t =>
    ∃ id f, id.index < types.structs.length ∧ (types.get id).field? field = some f ∧
      object.type = receiverType chained id ∧ t = if chained then .optional f.type else f.type
  | .construct id args =>
    List.Forall₂ (fun arg field => arg.type.assignable field.type = true) args
      (types.get id).fields
  | _ => True

/-- The statement obeys its rule, as far as it does not depend on what is around it. -/
def Stmt.Ruled : Stmt → Prop
  | .declare v _ value => v.type = value.type
  | .function f params _ => params.map (·.type) = f.params
  | .assign target source _ =>
    Check.targetFault? target = none ∧ source.type.assignable target.type = true
  | .increment target | .decrement target =>
    Check.targetFault? target = none ∧ target.type = .int
  | .branch test _ _ | .shortBranch test _ | .whileLoop test _ => test.type = .bool
  | .repeatLoop count _ => count.type = .int
  | .rangeLoop v low _ high _ => v.type = .int ∧ low.type = .int ∧ high.type = .int
  | .eachLoop v collection _ => collection.type = .array v.type
  | .struct _ | .breakLoop | .giveBack _ | .perform _ => True

end Typed

namespace Check

open Syntax

/-! ## Checks that pass -/

theorem bind_eq_ok {α β : Type} {x : Except Diagnostic α} {f : α → Except Diagnostic β} {b : β} :
    (x >>= f) = .ok b ↔ ∃ a, x = .ok a ∧ f a = .ok b := by
  cases x <;> simp [bind, Except.bind]

theorem pure_eq_ok {α : Type} {a b : α} :
    (pure a : Except Diagnostic α) = .ok b ↔ a = b := by
  simp [pure, Except.pure]

variable {env : Env} {p q : Position} {u : Unit}

theorem expectClass_ok {t : Ty} {inClass : Ty → Bool} {expected : String}
    (h : env.expectClass t inClass expected p = .ok u) : inClass t = true := by
  unfold Env.expectClass at h
  split at h
  · assumption
  · cases h

theorem expectInt_ok {t : Ty} (h : env.expectInt t p = .ok u) : t = .int :=
  of_decide_eq_true (expectClass_ok h)

theorem expectBool_ok {t : Ty} (h : env.expectBool t p = .ok u) : t = .bool :=
  of_decide_eq_true (expectClass_ok h)

theorem expectSame_ok {left right : Ty} (h : env.expectSame left right p = .ok u) :
    right = left := by
  unfold Env.expectSame at h
  split at h
  · rename_i heq
    exact (Ty.eq_of_equivalent heq).symm
  · cases h

theorem expectAssignable_ok {e : Typed.Expr} {t : Ty} (h : env.expectAssignable e t p = .ok u) :
    e.type.assignable t = true := by
  unfold Env.expectAssignable at h
  split at h
  · assumption
  · cases h

theorem expectArray_ok {t element : Ty} (h : expectArray env t p = .ok element) :
    t = .array element := by
  unfold expectArray at h
  split at h
  · rw [Except.ok.inj h]
  · cases h

theorem expectFunction_ok {t result : Ty} {params : List Ty}
    (h : expectFunction env t p = .ok (params, result)) : t = .function params result := by
  unfold expectFunction at h
  split at h
  · cases h
    rfl
  · cases h

theorem expectArity_ok {params : List Ty} {args : List Expr}
    (h : expectArity params args p = .ok u) : args.length = params.length := by
  unfold expectArity at h
  split at h
  · assumption
  · cases h

/-- The type that checking gives an operator is the one its rule asks for. -/
theorem binaryType_ok {op : BinaryOp} {left right : Typed.Expr} {t : Ty}
    (h : binaryType env op left right p q = .ok t) : op.Accepts left.type right.type t := by
  unfold binaryType at h
  cases op with
  | coalesce =>
    simp only at h
    split at h
    · rename_i base hbase
      simp only [bind_eq_ok, pure_eq_ok] at h
      obtain ⟨_, hr, rfl⟩ := h
      exact ⟨Ty.eq_sum_of_optionalBase? hbase, expectAssignable_ok hr⟩
    · cases h
  | or | and =>
    simp only [bind_eq_ok, pure_eq_ok] at h
    obtain ⟨_, hl, _, hr, rfl⟩ := h
    exact ⟨expectBool_ok hl, expectBool_ok hr, rfl⟩
  | bitOr | bitXor | bitAnd | shiftLeft | shiftRight =>
    simp only [bind_eq_ok, pure_eq_ok] at h
    obtain ⟨_, hl, _, hr, rfl⟩ := h
    exact ⟨expectInt_ok hl, expectInt_ok hr, rfl⟩
  | less | lessEquals | greaterEquals | greater | add | subtract | multiply | divide | remainder
  | power =>
    simp only [bind_eq_ok, pure_eq_ok] at h
    obtain ⟨_, hl, _, hr, rfl⟩ := h
    exact ⟨expectClass_ok hl, expectSame_ok hr, rfl⟩
  | equals | notEquals =>
    simp only [bind_eq_ok, pure_eq_ok] at h
    obtain ⟨_, hr, rfl⟩ := h
    exact ⟨expectSame_ok hr, rfl⟩

theorem unaryType_ok {op : UnaryOp} {operand t : Ty} (h : unaryType env op operand p = .ok t) :
    op.Accepts operand t := by
  unfold unaryType at h
  cases op with
  | negate | length =>
    simp only [bind_eq_ok, pure_eq_ok] at h
    obtain ⟨_, hc, rfl⟩ := h
    exact ⟨expectClass_ok hc, rfl⟩
  | not =>
    simp only [bind_eq_ok, pure_eq_ok] at h
    obtain ⟨_, hc, rfl⟩ := h
    exact ⟨expectBool_ok hc, rfl⟩
  | some => exact (pure_eq_ok.mp h).symm

/-! ## Names, fields and arguments -/

theorem find?_of_lookup {scopes : Scopes} {name : String} {x : Entity}
    (h : scopes.lookup name p = .ok x) : scopes.find? name = some x := by
  unfold Scopes.lookup at h
  split at h
  · cases h
    assumption
  · cases h

theorem symbol_eq {name : String} {e : Typed.Expr} (h : symbol env name p = .ok e) :
    (∃ v, env.scopes.find? name = some (.variable v) ∧ e = .variable v) ∨
      ∃ f, env.scopes.find? name = some (.function f) ∧ e = .function f := by
  unfold symbol at h
  obtain ⟨x, hx, hrest⟩ := bind_eq_ok.mp h
  cases x with
  | «variable» v =>
    cases hrest
    exact .inl ⟨v, find?_of_lookup hx, rfl⟩
  | function f =>
    cases hrest
    exact .inr ⟨f, find?_of_lookup hx, rfl⟩
  | type t => cases hrest

theorem type_eq_of_receiver? {chained : Bool} {t : Ty} {id : StructId}
    (h : receiver? chained t = some id) : t = Typed.receiverType chained id := by
  unfold receiver? at h
  split at h
  · rename_i heq
    cases h
    cases chained with
    | true => exact Ty.eq_sum_of_optionalBase? heq
    | false => exact Option.some.inj heq
  · cases h

/-- A struct that has a field is declared. -/
theorem index_lt_of_field? {types : TypeTable} {id : StructId} {field : String} {f : Field}
    (h : (types.get id).field? field = some f) : id.index < types.structs.length := by
  by_contra hlt
  rw [TypeTable.get, List.getD_eq_default _ _ (Nat.le_of_not_lt hlt)] at h
  cases h

/-- A field that is taken is one of the struct that has it. -/
theorem member_fielded {object e : Typed.Expr} {field : String} {chained : Bool}
    (h : member env object field chained p q = .ok e) :
    ∃ t, e = .member object field chained t ∧ e.Fielded env.types := by
  unfold member at h
  split at h
  · cases h
  · rename_i id hid
    split at h
    · cases h
    · rename_i f hf
      cases h
      exact ⟨_, rfl, id, f, index_lt_of_field? hf, hf, type_eq_of_receiver? hid, rfl⟩

/-- The callee of a call that makes a struct is the name of a type. -/
theorem constructed?_eq {c : Expr} {t : Ty} (h : constructed? env c = .ok (some (t, p))) :
    ∃ name span, c = .symbol name span ∧ env.scopes.find? name = some (.type t) := by
  unfold constructed? at h
  split at h
  · rename_i name span
    obtain ⟨x, hx, hrest⟩ := bind_eq_ok.mp h
    cases x with
    | type u =>
      cases hrest
      exact ⟨name, span, rfl, find?_of_lookup hx⟩
    | _ => cases hrest
  · cases h

theorem expectStruct_ok {t : Ty} {id : StructId} (h : expectStruct env t p = .ok id) :
    t = .struct id := by
  unfold expectStruct at h
  split at h
  · rw [Except.ok.inj h]
  · cases h

theorem arguments_fit : ∀ {params : List Ty} {as : List Expr} {es : List Typed.Expr},
    as.length = params.length → arguments env params as = .ok es →
    List.Forall₂ (fun e param => e.type.assignable param = true) es params
  | [], [], es, _, h => by
    rw [arguments, pure_eq_ok] at h
    subst h
    exact .nil
  | _ :: _, [], _, hlen, _ | [], _ :: _, _, hlen, _ => absurd hlen (by simp)
  | t :: ts, a :: as, es, hlen, h => by
    simp only [arguments, bind_eq_ok, pure_eq_ok] at h
    obtain ⟨e, -, _, hfits, es, hes, rfl⟩ := h
    exact .cons (expectAssignable_ok hfits) (arguments_fit (by simpa using hlen) hes)

theorem isArrayType_elementType (elements : List Typed.Expr) :
    Typed.IsArrayType elements (.array (elementType elements)) := by
  have hall : ∀ s, Ty.distinct (elements.map (·.type)) = [s] ↔
      elements ≠ [] ∧ ∀ e ∈ elements, e.type = s := by
    intro s
    rw [Ty.distinct_eq_singleton_iff]
    simp
  refine ⟨fun s hne hs => ?_, fun hnone => ?_⟩
  · rw [elementType, Ty.ofAlternatives, (hall s).mpr ⟨hne, hs⟩]
  · have hsum : elementType elements = .ofAlternatives (elements.map (·.type)) := by
      unfold elementType
      split
      · rename_i t heq
        exact absurd ⟨t, (hall t).mp (Ty.sum.inj heq)⟩ hnone
      · rfl
    rw [hsum]

/-! ## Expressions -/

/-- What checking sees to in a node: its rule, its name and its fields. -/
structure Sees (env : Env) (e : Typed.Expr) : Prop where
  ruled : e.Ruled
  named : e.Named env.scopes
  fielded : e.Fielded env.types

mutual

/-- **Checking an expression sees to every node of it.** -/
theorem expr_checked (env : Env) : ∀ {a : Expr} {e : Typed.Expr}, expr env a = .ok e →
    e.Everywhere (Sees env)
  | .int _ _, _, h | .float _ _, _, h | .string _ _, _, h | .bool _ _, _, h => by
    rw [expr, pure_eq_ok] at h
    subst h
    exact .node ⟨trivial, trivial, trivial⟩ nofun
  | .symbol name span, e, h => by
    rw [expr] at h
    rcases symbol_eq h with ⟨v, hv, rfl⟩ | ⟨f, hf, rfl⟩
    · exact .node ⟨trivial, ⟨name, hv⟩, trivial⟩ nofun
    · exact .node ⟨trivial, ⟨name, hf⟩, trivial⟩ nofun
  | .binary op l r span, e, h => by
    simp only [expr, bind_eq_ok, pure_eq_ok] at h
    obtain ⟨left, hl, right, hr, t, ht, rfl⟩ := h
    exact .node ⟨binaryType_ok ht, trivial, trivial⟩
      (by simpa [Typed.Expr.parts] using ⟨expr_checked env hl, expr_checked env hr⟩)
  | .unary op a span, e, h => by
    simp only [expr, bind_eq_ok, pure_eq_ok] at h
    obtain ⟨operand, ho, t, ht, rfl⟩ := h
    exact .node ⟨unaryType_ok ht, trivial, trivial⟩
      (by simpa [Typed.Expr.parts] using expr_checked env ho)
  | .conditional t y n span, e, h => by
    simp only [expr, bind_eq_ok, pure_eq_ok] at h
    obtain ⟨test, ht, _, hb, yes, hy, no, hn, _, hs, rfl⟩ := h
    exact .node ⟨⟨expectBool_ok hb, rfl, expectSame_ok hs⟩, trivial, trivial⟩ (by
      simpa [Typed.Expr.parts] using
        ⟨expr_checked env ht, expr_checked env hy, expr_checked env hn⟩)
  | .array as span, e, h => by
    simp only [expr, bind_eq_ok, pure_eq_ok] at h
    obtain ⟨elements, hes, rfl⟩ := h
    exact .node ⟨isArrayType_elementType elements, trivial, trivial⟩ (exprs_checked env hes)
  | .emptyArray t span, e, h => by
    simp only [expr, bind_eq_ok, pure_eq_ok] at h
    obtain ⟨element, -, rfl⟩ := h
    exact .node ⟨⟨element, rfl⟩, trivial, trivial⟩ nofun
  | .absent t span, e, h => by
    simp only [expr, bind_eq_ok, pure_eq_ok] at h
    obtain ⟨base, -, rfl⟩ := h
    exact .node ⟨⟨base, rfl⟩, trivial, trivial⟩ nofun
  | .subscript a i span, e, h => by
    simp only [expr, bind_eq_ok, pure_eq_ok] at h
    obtain ⟨items, ha, element, ht, index, hi, _, hint, rfl⟩ := h
    exact .node ⟨⟨expectArray_ok ht, expectInt_ok hint⟩, trivial, trivial⟩
      (by simpa [Typed.Expr.parts] using ⟨expr_checked env ha, expr_checked env hi⟩)
  | .member o field chained span, e, h => by
    simp only [expr, bind_eq_ok] at h
    obtain ⟨object, ho, hm⟩ := h
    obtain ⟨t, rfl, id, f, hlt, hf, hobject, ht⟩ := member_fielded hm
    exact .node ⟨⟨id, hobject⟩, trivial, id, f, hlt, hf, hobject, ht⟩
      (by simpa [Typed.Expr.parts] using expr_checked env ho)
  | .call c as span, e, h => by
    rw [expr, bind_eq_ok] at h
    obtain ⟨made, hmade, hrest⟩ := h
    cases made with
    | some made =>
      simp only [bind_eq_ok, pure_eq_ok] at hrest
      obtain ⟨id, hid, _, hlen, args, hargs, rfl⟩ := hrest
      obtain ⟨name, _, -, hname⟩ := constructed?_eq hmade
      rw [expectStruct_ok hid] at hname
      have hfits := arguments_fit (expectArity_ok hlen) hargs
      exact .node ⟨trivial, ⟨name, hname⟩, List.forall₂_map_right_iff.mp hfits⟩
        (arguments_checked env hargs)
    | none =>
      simp only [bind_eq_ok, pure_eq_ok] at hrest
      obtain ⟨callee, hc, ⟨params, result⟩, hf, _, hlen, args, hargs, rfl⟩ := hrest
      have hfits := arguments_fit (expectArity_ok hlen) hargs
      refine .node ⟨⟨params, expectFunction_ok hf, hfits⟩, trivial, trivial⟩ ?_
      simpa [Typed.Expr.parts] using ⟨expr_checked env hc, arguments_checked env hargs⟩

theorem exprs_checked (env : Env) : ∀ {as : List Expr} {es : List Typed.Expr},
    exprs env as = .ok es → ∀ e ∈ es, e.Everywhere (Sees env)
  | [], es, h => by
    rw [exprs, pure_eq_ok] at h
    subst h
    exact nofun
  | a :: as, es, h => by
    simp only [exprs, bind_eq_ok, pure_eq_ok] at h
    obtain ⟨e, he, es, hes, rfl⟩ := h
    exact List.forall_mem_cons.mpr ⟨expr_checked env he, exprs_checked env hes⟩

theorem arguments_checked (env : Env) : ∀ {params : List Ty} {as : List Expr}
    {es : List Typed.Expr}, arguments env params as = .ok es → ∀ e ∈ es, e.Everywhere (Sees env)
  | _, [], es, h | [], _ :: _, es, h => by
    rw [arguments, pure_eq_ok] at h
    subst h
    exact nofun
  | t :: ts, a :: as, es, h => by
    simp only [arguments, bind_eq_ok, pure_eq_ok] at h
    obtain ⟨e, he, _, -, es, hes, rfl⟩ := h
    exact List.forall_mem_cons.mpr ⟨expr_checked env he, arguments_checked env hes⟩

end

/-- Checked expressions obey the rules, whatever the scopes and structs known so far. -/
theorem expr_ruled (env : Env) {a : Expr} {e : Typed.Expr} (h : expr env a = .ok e) :
    e.Everywhere Typed.Expr.Ruled :=
  (expr_checked env h).imp fun _ => Sees.ruled

end Check

end Quill
