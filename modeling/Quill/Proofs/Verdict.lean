import Quill.Compile
import Quill.Proofs.Lockstep
import Quill.Proofs.Renaming

/-!
# Checking trees that are alike, under other names

Checking looks at the places of a tree only to say where a fault is, and that is always where some
node starts. It looks at names only where they are looked up or declared, or to say what is wrong.
So a tree is checked, and so is one that is alike, with all names changed by an injective map `r`:
the second typed program is the first one renamed, or both have faults of meaning, of one kind, at
places that correspond. Where no name changes, the causes are one.

`Follows` says this of two results, and `Checker.Follows` of two checkers, of which the second
starts in the renamed state and leaves a renamed state. The proofs go along the trees, as the
checker does, once for places, for names and for the kinds of causes.

Results:
* `follows_resolve`, `follows_expr`: annotations and expressions.
* `follows_stmt`: statements.
* **`Check.follows_program`**: programs.
* `Check.agree_program`: programs that are alike, under the same names.
-/

namespace Quill.Check

open Syntax

variable {R : Correspondence} {r : String → String} {α β γ δ : Type}

/-! ## Results -/

/-- The second result is `f` of the first, or both are faults whose causes are akin, at places that
correspond. -/
inductive Follows (R : Correspondence) (r : String → String) (f : α → β) :
    Except Diagnostic α → Except Diagnostic β → Prop
  | ok (a : α) : Follows R r f (.ok a) (.ok (f a))
  | fault {p q : Position} {c c' : Cause} (hplace : R.starts p q) (hcause : c.Akin r c') :
      Follows R r f (.error ⟨c, p⟩) (.error ⟨c', q⟩)

namespace Follows

variable {f : α → β} {g : γ → δ}

theorem refl (a : α) : Follows R r id (.ok a) (.ok a) := .ok a

theorem bind {x : Except Diagnostic α} {y : Except Diagnostic β} {k : α → Except Diagnostic γ}
    {l : β → Except Diagnostic δ} (hxy : Follows R r f x y)
    (h : ∀ a, Follows R r g (k a) (l (f a))) : Follows R r g (x >>= k) (y >>= l) := by
  cases hxy with
  | ok a => exact h a
  | fault hplace hcause => exact .fault hplace hcause

theorem ite {b : Prop} [Decidable b] {x x' : Except Diagnostic α} {y y' : Except Diagnostic β}
    (hyes : Follows R r f x y) (hno : Follows R r f x' y') :
    Follows R r f (if b then x else x') (if b then y else y') := by
  split_ifs
  · exact hyes
  · exact hno

end Follows

/-! ## Demands -/

section

variable (env : Env) {p q : Position} (h : R.starts p q)

include h

theorem follows_expectAssignable (source : Typed.Expr) (target : Ty) :
    Follows R r id (env.expectAssignable source target p)
      ((env.rename r).expectAssignable (source.rename r) target q) := by
  unfold Env.expectAssignable
  rw [Typed.Expr.type_rename]
  exact .ite (.refl _) (.fault h (env.akin_describe r
    (fun describe => .notAssignable (describe target) (describe source.type))
    (fun _ _ => rfl) fun _ => rfl))

theorem follows_wrongClass {f : α → β} (expected : String) (t : Ty) :
    Follows R r f (.error (env.wrongClass expected t p))
      (.error ((env.rename r).wrongClass expected t q)) :=
  .fault h (env.akin_describe r (fun describe => .wrongClass expected (describe t))
    (fun _ _ => rfl) fun _ => rfl)

theorem follows_notCallable {f : α → β} (t : Ty) :
    Follows R r f (.error ⟨.notCallable (env.describe t), p⟩)
      (.error ⟨.notCallable ((env.rename r).describe t), q⟩) :=
  .fault h (env.akin_describe r (fun describe => .notCallable (describe t))
    (fun _ _ => rfl) fun _ => rfl)

theorem follows_expectClass (t : Ty) (inClass : Ty → Bool) (expected : String) :
    Follows R r id (env.expectClass t inClass expected p)
      ((env.rename r).expectClass t inClass expected q) :=
  .ite (.refl _) (follows_wrongClass env h expected t)

theorem follows_expectSame (left right : Ty) :
    Follows R r id (env.expectSame left right p) ((env.rename r).expectSame left right q) :=
  .ite (.refl _) (.fault h (env.akin_describe r
    (fun describe => .operandsDiffer (describe left) (describe right))
    (fun _ _ => rfl) fun _ => rfl))

theorem follows_expectArray (t : Ty) :
    Follows R r id (expectArray env t p) (expectArray (env.rename r) t q) := by
  cases t with
  | array element => exact .refl _
  | _ => exact follows_wrongClass env h _ _

theorem follows_expectFunction (t : Ty) :
    Follows R r id (expectFunction env t p) (expectFunction (env.rename r) t q) := by
  cases t with
  | function params result => exact .refl _
  | _ => exact follows_notCallable env h _

theorem follows_expectStruct (t : Ty) :
    Follows R r id (expectStruct env t p) (expectStruct (env.rename r) t q) := by
  cases t with
  | struct id => exact .refl _
  | _ => exact follows_notCallable env h _

theorem follows_expectArity (params : List Ty) {as bs : List Expr}
    (has : List.Forall₂ (Expr.Alike R) as bs) :
    Follows R r id (expectArity params as p) (expectArity params (Expr.renameAll r bs) q) := by
  unfold expectArity
  rw [Expr.length_renameAll, has.length_eq]
  exact .ite (.refl _) (.fault h (.refl rfl))

theorem follows_unaryType (op : UnaryOp) (operand : Ty) :
    Follows R r id (unaryType env op operand p) (unaryType (env.rename r) op operand q) := by
  cases op with
  | some => exact .refl _
  | _ => exact (follows_expectClass env h _ _ _).bind fun _ => .refl _

variable {p' q' : Position} (h' : R.starts p' q')

include h'

theorem follows_binaryType (op : BinaryOp) (left right : Typed.Expr) :
    Follows R r id (binaryType env op left right p p')
      (binaryType (env.rename r) op (left.rename r) (right.rename r) q q') := by
  unfold binaryType
  rw [Typed.Expr.type_rename, Typed.Expr.type_rename]
  cases op with
  | coalesce =>
    cases left.type.optionalBase? with
    | none => exact follows_wrongClass env h _ _
    | some base => exact (follows_expectAssignable env h' right base).bind fun _ => .refl _
  | equals | notEquals => exact (follows_expectSame env h' _ _).bind fun _ => .refl _
  | or | and | bitOr | bitXor | bitAnd | shiftLeft | shiftRight =>
    refine (follows_expectClass env h _ _ _).bind fun _ => ?_
    exact (follows_expectClass env h' _ _ _).bind fun _ => .refl _
  | _ =>
    refine (follows_expectClass env h _ _ _).bind fun _ => ?_
    exact (follows_expectSame env h' _ _).bind fun _ => .refl _

theorem follows_member (object : Typed.Expr) (field : String) (chained : Bool) :
    Follows R r (Typed.Expr.rename r) (member env object field chained p p')
      (member (env.rename r) (object.rename r) field chained q q') := by
  unfold member
  rw [Typed.Expr.type_rename]
  cases receiver? chained object.type with
  | none => exact follows_wrongClass env h _ _
  | some id =>
    have hfield : ((env.rename r).types.get id).field? field = (env.types.get id).field? field :=
      congrArg (List.find? fun f : Field => f.name == field) (env.types.fields_get_rename r id)
    dsimp only
    rw [hfield]
    cases (env.types.get id).field? field with
    | some f => exact .ok _
    | none =>
      refine .fault h' ⟨rfl, rfl, ?_⟩
      rintro rfl
      rw [show (env.rename _).types = env.types from env.types.rename_id]

end

/-! ## Names -/

section

variable (hr : Function.Injective r) {p q : Position} (h : R.starts p q)

include hr h

theorem follows_lookup (scopes : Scopes) (name : String) :
    Follows R r (Entity.rename r) (scopes.lookup name p)
      ((scopes.rename r).lookup (r name) q) := by
  unfold Scopes.lookup
  rw [Scopes.find?_rename hr]
  cases scopes.find? name with
  | none => exact .fault h ⟨rfl, rfl, by rintro rfl; rfl⟩
  | some entity => exact .ok entity

theorem follows_declare (scopes : Scopes) (name : String) (entity : Entity) :
    Follows R r (Scopes.rename r) (scopes.declare name entity p)
      ((scopes.rename r).declare (r name) (entity.rename r) q) := by
  unfold Scopes.declare
  rw [show (scopes.rename r).inner = scopes.inner.rename r from rfl, Scope.find?_rename hr]
  cases scopes.inner.find? name with
  | none => exact .ok _
  | some entity => exact .fault h ⟨rfl, rfl, by rintro rfl; rfl⟩

theorem follows_symbol (env : Env) (name : String) :
    Follows R r (Typed.Expr.rename r) (symbol env name p) (symbol (env.rename r) (r name) q) := by
  refine (follows_lookup hr h env.scopes name).bind fun entity => ?_
  cases entity with
  | type t => exact .fault h ⟨rfl, rfl, by rintro rfl; rfl⟩
  | «variable» v => exact .ok (Typed.Expr.variable v)
  | function f => exact .ok (Typed.Expr.function f)

omit h in
/-- Both callees name the same type, or neither names one. -/
theorem follows_constructed? (env : Env) {a b : Expr} (hab : a.Alike R b) {g : γ → δ}
    {k : Option (Ty × Position) → Except Diagnostic γ}
    {l : Option (Ty × Position) → Except Diagnostic δ}
    (hsome : ∀ t {p q}, R.starts p q → Follows R r g (k (some (t, p))) (l (some (t, q))))
    (hnone : Follows R r g (k none) (l none)) :
    Follows R r g (constructed? env a >>= k)
      (constructed? (env.rename r) (b.rename r) >>= l) := by
  cases hab with
  | symbol hs =>
    rw [Expr.rename, constructed?, constructed?, bind_assoc, bind_assoc]
    refine (follows_lookup hr hs.start env.scopes _).bind fun entity => ?_
    cases entity with
    | type t => exact hsome t hs.start
    | _ => exact hnone
  | _ => exact hnone

end

/-! ## Annotations and expressions -/

mutual

theorem follows_resolve (hr : Function.Injective r) (env : Env) : ∀ {a b : TypeExpr},
    a.Alike R b → Follows R r id (resolve env a) (resolve (env.rename r) (b.rename r))
  | .named name _, _, h => by
    cases h with
    | named hs =>
      rw [TypeExpr.rename, resolve, resolve]
      refine (follows_lookup hr hs.start env.scopes name).bind fun entity => ?_
      cases entity with
      | type t => exact .refl t
      | _ => exact .fault hs.start ⟨rfl, rfl, by rintro rfl; rfl⟩
  | .array _ _, _, h => by
    cases h with
    | array helement _ =>
      rw [TypeExpr.rename, resolve, resolve]
      exact (follows_resolve hr env helement).bind fun _ => .refl _
  | .optional _ _, _, h => by
    cases h with
    | optional hbase _ =>
      rw [TypeExpr.rename, resolve, resolve]
      exact (follows_resolve hr env hbase).bind fun _ => .refl _
  | .sum _ _, _, h => by
    cases h with
    | sum halternatives _ =>
      rw [TypeExpr.rename, resolve, resolve]
      exact (follows_resolveAll hr env halternatives).bind fun _ => .refl _
  | .function _ _ _, _, h => by
    cases h with
    | function hparams hresult _ =>
      rw [TypeExpr.rename, resolve, resolve]
      refine (follows_resolveAll hr env hparams).bind fun _ => ?_
      exact (follows_resolve hr env hresult).bind fun _ => .refl _

theorem follows_resolveAll (hr : Function.Injective r) (env : Env) : ∀ {as bs : List TypeExpr},
    List.Forall₂ (TypeExpr.Alike R) as bs →
      Follows R r id (resolveAll env as) (resolveAll (env.rename r) (TypeExpr.renameAll r bs))
  | [], _, h => by
    cases h
    exact .refl _
  | _ :: _, _, h => by
    cases h with
    | cons hab has =>
      rw [TypeExpr.renameAll, resolveAll, resolveAll]
      refine (follows_resolve hr env hab).bind fun _ => ?_
      exact (follows_resolveAll hr env has).bind fun _ => .refl _

end

mutual

theorem follows_expr (hr : Function.Injective r) (env : Env) : ∀ {a b : Expr}, a.Alike R b →
    Follows R r (Typed.Expr.rename r) (expr env a) (expr (env.rename r) (b.rename r))
  | .int _ _, _, h | .float _ _, _, h | .string _ _, _, h | .bool _ _, _, h => by
    cases h
    exact .ok _
  | .symbol name _, _, h => by
    cases h with
    | symbol hs =>
      rw [Expr.rename, expr, expr]
      exact follows_symbol hr hs.start env name
  | .binary op _ _ _, _, h => by
    cases h with
    | binary hleft hright _ =>
      rw [Expr.rename, expr, expr, Expr.span_rename, Expr.span_rename]
      refine (follows_expr hr env hleft).bind fun left => ?_
      refine (follows_expr hr env hright).bind fun right => ?_
      exact (follows_binaryType env hleft.span.start hright.span.start op left right).bind
        fun _ => .ok _
  | .unary op _ _, _, h => by
    cases h with
    | unary hoperand _ =>
      rw [Expr.rename, expr, expr, Expr.span_rename]
      refine (follows_expr hr env hoperand).bind fun operand => ?_
      rw [Typed.Expr.type_rename]
      exact (follows_unaryType env hoperand.span.start op operand.type).bind fun _ => .ok _
  | .conditional _ _ _ _, _, h => by
    cases h with
    | conditional htest hyes hno _ =>
      rw [Expr.rename, expr, expr, Expr.span_rename, Expr.span_rename]
      refine (follows_expr hr env htest).bind fun test => ?_
      rw [Typed.Expr.type_rename]
      refine (follows_expectClass env htest.span.start _ _ _).bind fun _ => ?_
      refine (follows_expr hr env hyes).bind fun yes => (follows_expr hr env hno).bind fun no => ?_
      rw [Typed.Expr.type_rename, Typed.Expr.type_rename]
      exact (follows_expectSame env hno.span.start _ _).bind fun _ => .ok _
  | .array _ _, _, h => by
    cases h with
    | array helements _ =>
      rw [Expr.rename, expr, expr]
      refine (follows_exprs hr env helements).bind fun elements => ?_
      unfold elementType
      rw [Typed.Expr.map_type_renameAll]
      exact .ok _
  | .emptyArray _ _, _, h => by
    cases h with
    | emptyArray helement _ =>
      rw [Expr.rename, expr, expr]
      exact (follows_resolve hr env helement).bind fun _ => .ok _
  | .absent _ _, _, h => by
    cases h with
    | absent hbase _ =>
      rw [Expr.rename, expr, expr]
      exact (follows_resolve hr env hbase).bind fun _ => .ok _
  | .subscript _ _ _, _, h => by
    cases h with
    | subscript hitems hindex _ =>
      rw [Expr.rename, expr, expr, Expr.span_rename, Expr.span_rename]
      refine (follows_expr hr env hitems).bind fun items => ?_
      rw [Typed.Expr.type_rename]
      refine (follows_expectArray env hitems.span.start items.type).bind fun element => ?_
      refine (follows_expr hr env hindex).bind fun index => ?_
      rw [Typed.Expr.type_rename]
      exact (follows_expectClass env hindex.span.start _ _ _).bind fun _ => .ok _
  | .member _ field chained _, _, h => by
    cases h with
    | member hobject hs =>
      rw [Expr.rename, expr, expr, Expr.span_rename]
      refine (follows_expr hr env hobject).bind fun object => ?_
      exact follows_member env hobject.span.start hs.start object field chained
  | .call _ _ _, _, h => by
    cases h with
    | call hcallee hargs hs =>
      rw [Expr.rename, expr, expr, Expr.span_rename]
      refine follows_constructed? hr env hcallee (fun t p q hpq => ?_) ?_
      · refine (follows_expectStruct env hpq t).bind fun id => ?_
        have hparams : ((env.rename r).types.get id).fields = (env.types.get id).fields :=
          env.types.fields_get_rename r id
        dsimp only [id_eq]
        rw [hparams]
        refine (follows_expectArity hs.start _ hargs).bind fun _ => ?_
        exact (follows_arguments hr env _ hargs).bind fun _ => .ok _
      · refine (follows_expr hr env hcallee).bind fun callee => ?_
        rw [Typed.Expr.type_rename]
        refine (follows_expectFunction env hcallee.span.start callee.type).bind fun sig => ?_
        refine (follows_expectArity hs.start sig.1 hargs).bind fun _ => ?_
        exact (follows_arguments hr env sig.1 hargs).bind fun _ => .ok _

theorem follows_exprs (hr : Function.Injective r) (env : Env) : ∀ {as bs : List Expr},
    List.Forall₂ (Expr.Alike R) as bs → Follows R r (Typed.Expr.renameAll r) (exprs env as)
      (exprs (env.rename r) (Expr.renameAll r bs))
  | [], _, h => by
    cases h
    exact .ok []
  | _ :: _, _, h => by
    cases h with
    | cons hab has =>
      rw [Expr.renameAll, exprs, exprs]
      refine (follows_expr hr env hab).bind fun e => ?_
      exact (follows_exprs hr env has).bind fun _ => .ok _

theorem follows_arguments (hr : Function.Injective r) (env : Env) : ∀ (params : List Ty)
    {as bs : List Expr}, List.Forall₂ (Expr.Alike R) as bs →
      Follows R r (Typed.Expr.renameAll r) (arguments env params as)
        (arguments (env.rename r) params (Expr.renameAll r bs))
  | _, [], _, h => by
    cases h
    exact .ok []
  | [], _ :: _, _, h => by
    cases h
    exact .ok []
  | t :: ts, _ :: _, _, h => by
    cases h with
    | cons hab has =>
      rw [Expr.renameAll, arguments, arguments, Expr.span_rename]
      refine (follows_expr hr env hab).bind fun arg => ?_
      refine (follows_expectAssignable env hab.span.start arg t).bind fun _ => ?_
      exact (follows_arguments hr env ts has).bind fun _ => .ok _

end

/-! ## Checkers -/

namespace Checker

/-- From a state and the renamed state, the checkers give results of which the second is `f` of the
first, or faults whose causes are akin, at places that correspond. They leave a state and the
renamed state in any case. -/
def Follows (R : Correspondence) (r : String → String) (f : α → β) (m : Checker α)
    (n : Checker β) : Prop :=
  ∀ s, (∃ a s', m s = .ok a s' ∧ n (s.rename r) = .ok (f a) (s'.rename r)) ∨
    ∃ d e s', m s = .error d s' ∧ n (s.rename r) = .error e (s'.rename r) ∧
      R.starts d.position e.position ∧ d.cause.Akin r e.cause

namespace Follows

variable {f : α → β} {g : γ → δ}

theorem pure (a : α) : Follows R r f (Pure.pure a) (Pure.pure (f a)) :=
  fun s => .inl ⟨a, s, rfl, rfl⟩

theorem throw {p q : Position} {c c' : Cause} (hplace : R.starts p q) (hcause : c.Akin r c') :
    Follows R r f (MonadExcept.throw (⟨c, p⟩ : Diagnostic) : Checker α)
      (MonadExcept.throw (⟨c', q⟩ : Diagnostic) : Checker β) :=
  fun s => .inr ⟨_, _, s, rfl, rfl, hplace, hcause⟩

theorem bind {m : Checker α} {n : Checker β} {k : α → Checker γ} {l : β → Checker δ}
    (hmn : Follows R r f m n) (h : ∀ a, Follows R r g (k a) (l (f a))) :
    Follows R r g (m >>= k) (n >>= l) := by
  intro s
  change (∃ b s', EStateM.bind m k s = .ok b s' ∧ EStateM.bind n l _ = .ok (g b) (s'.rename r)) ∨
    ∃ d e s', EStateM.bind m k s = .error d s' ∧ EStateM.bind n l _ = .error e (s'.rename r) ∧
      R.starts d.position e.position ∧ d.cause.Akin r e.cause
  unfold EStateM.bind
  obtain ⟨a, s', hm, hn⟩ | ⟨d, e, s', hm, hn, hde⟩ := hmn s
  · rw [hm, hn]
    exact h a s'
  · rw [hm, hn]
    exact .inr ⟨d, e, s', rfl, rfl, hde⟩

theorem get {k : State → Checker γ} {l : State → Checker δ}
    (h : ∀ s, Follows R r g (k s) (l (s.rename r))) :
    Follows R r g (MonadState.get >>= k) (MonadState.get >>= l) :=
  fun s => h s s

theorem set {s : State} : Follows R r id (MonadStateOf.set s : Checker PUnit)
    (MonadStateOf.set (s.rename r)) :=
  fun _ => .inl ⟨_, s, rfl, rfl⟩

theorem change {k l : State → State} (h : ∀ s : State, l (s.rename r) = (k s).rename r) :
    Follows R r id (modify k : Checker PUnit) (modify l) :=
  fun s => .inl ⟨_, k s, rfl, congrArg _ (h s)⟩

theorem ask {k : Env → Except Diagnostic α} {l : Env → Except Diagnostic β}
    (h : ∀ env, Check.Follows R r f (k env) (l (env.rename r))) :
    Follows R r f (Checker.ask k) (Checker.ask l) := by
  refine get fun s => ?_
  have hkl : Check.Follows R r f (k s.env) (l (s.rename r).env) := h s.env
  generalize k s.env = x at hkl
  generalize l (s.rename r).env = y at hkl
  cases hkl with
  | ok a => exact pure a
  | fault hplace hcause => exact throw hplace hcause

theorem freshId : Follows R r id Checker.freshId Checker.freshId :=
  fun s => .inl ⟨s.nextId, _, rfl, rfl⟩

theorem mapScopes_rename {k l : Scopes → Scopes}
    (h : ∀ scopes : Scopes, l (scopes.rename r) = (k scopes).rename r) (s : State) :
    mapScopes l (s.rename r) = (mapScopes k s).rename r :=
  congrArg (fun scopes => State.mk ⟨scopes, s.env.types.rename r⟩ s.nextId) (h s.env.scopes)

theorem inScope {m : Checker α} {n : Checker β} (kind : ScopeKind) (hmn : Follows R r f m n) :
    Follows R r f (Checker.inScope kind m) (Checker.inScope (kind.rename r) n) := by
  intro s
  unfold Checker.inScope
  rw [mapScopes_rename (fun scopes => scopes.push_rename r kind)]
  obtain ⟨a, s', hm, hn⟩ | ⟨d, e, s', hm, hn, hde⟩ := hmn (mapScopes (·.push kind) s)
  · rw [hm, hn]
    exact .inl ⟨a, _, rfl, congrArg _ (mapScopes_rename (Scopes.pop_rename r) s')⟩
  · rw [hm, hn]
    exact .inr ⟨d, e, _, rfl, congrArg _ (mapScopes_rename (Scopes.pop_rename r) s'), hde⟩

section

variable (hr : Function.Injective r) {p q : Position} (hpq : R.starts p q)

include hr hpq

theorem declare (name : String) (entity : Entity) :
    Follows R r id (Checker.declare name entity p)
      (Checker.declare (r name) (entity.rename r) q) := by
  refine get fun s => ?_
  have hdeclare : Check.Follows R r (Scopes.rename r) (s.env.scopes.declare name entity p)
      ((s.rename r).env.scopes.declare (r name) (entity.rename r) q) :=
    follows_declare hr hpq s.env.scopes name entity
  generalize s.env.scopes.declare name entity p = x at hdeclare
  generalize (s.rename r).env.scopes.declare (r name) (entity.rename r) q = y at hdeclare
  cases hdeclare with
  | ok scopes => exact set
  | fault hplace hcause => exact throw hplace hcause

theorem declareVariable (name : String) (readOnly : Bool) (type : Ty) :
    Follows R r (Variable.rename r) (Checker.declareVariable name readOnly type p)
      (Checker.declareVariable (r name) readOnly type q) := by
  refine freshId.bind fun id => ?_
  exact (declare hr hpq name (.variable ⟨id, name, readOnly, type⟩)).bind fun _ => pure _

end

end Follows

end Checker

/-! ## Statements -/

open Checker

/-- Whether something can be assigned to does not depend on its name. -/
theorem targetFault?_rename (e : Typed.Expr) :
    Option.Rel (Cause.Akin r) (targetFault? e) (targetFault? (e.rename r)) := by
  cases e with
  | «variable» v =>
    rw [Typed.Expr.rename, targetFault?, targetFault?]
    change Option.Rel _ (if v.readOnly then _ else _) (if v.readOnly then _ else _)
    split_ifs
    · exact .some ⟨rfl, rfl, by rintro rfl; rfl⟩
    · exact .none
  | function f => exact .some ⟨rfl, rfl, by rintro rfl; rfl⟩
  | subscript _ _ _ => exact .none
  | member _ _ chained _ =>
    cases chained
    · exact .none
    · exact .some (.refl rfl)
  | _ => exact .some (.refl rfl)

theorem typedBranch_rename (test : Typed.Expr) (yes : List Typed.Stmt)
    (no : Option (List Typed.Stmt)) :
    typedBranch (test.rename r) (Typed.Stmt.renameAll r yes) (no.map (Typed.Stmt.renameAll r)) =
      (typedBranch test yes no).rename r := by
  cases no <;> rfl

section

variable (hr : Function.Injective r) {a b v w : Expr} {p q : Position}

include hr

theorem follows_condition (hab : a.Alike R b) :
    Checker.Follows R r (Typed.Expr.rename r) (condition a) (condition (b.rename r)) := by
  refine .ask fun env => (follows_expr hr env hab).bind fun test => ?_
  rw [Typed.Expr.type_rename, Expr.span_rename]
  exact (follows_expectClass env hab.span.start _ _ _).bind fun _ => .ok _

theorem follows_integer (hab : a.Alike R b) :
    Checker.Follows R r (Typed.Expr.rename r) (integer a) (integer (b.rename r)) := by
  refine .ask fun env => (follows_expr hr env hab).bind fun n => ?_
  rw [Typed.Expr.type_rename, Expr.span_rename]
  exact (follows_expectClass env hab.span.start _ _ _).bind fun _ => .ok _

theorem follows_target (env : Env) (hab : a.Alike R b) :
    Follows R r (Typed.Expr.rename r) (target env a) (target (env.rename r) (b.rename r)) := by
  refine (follows_expr hr env hab).bind fun place => ?_
  rw [Expr.span_rename]
  have hfault := targetFault?_rename (r := r) place
  generalize targetFault? place = x at hfault
  generalize targetFault? (place.rename r) = y at hfault
  cases hfault with
  | none => exact .ok _
  | some hcause => exact .fault hab.span.start hcause

theorem follows_assignment (hab : a.Alike R b) (hvw : v.Alike R w) :
    Checker.Follows R r (Prod.map (Typed.Expr.rename r) (Typed.Expr.rename r)) (assignment a v)
      (assignment (b.rename r) (w.rename r)) := by
  refine .ask fun env => (follows_target hr env hab).bind fun place => ?_
  refine (follows_expr hr env hvw).bind fun source => ?_
  rw [Typed.Expr.type_rename, Expr.span_rename]
  exact (follows_expectAssignable env hvw.span.start source place.type).bind fun _ =>
    .ok (place, source)

theorem follows_counted (hab : a.Alike R b) (hpq : R.starts p q) :
    Checker.Follows R r (Typed.Expr.rename r) (counted a p) (counted (b.rename r) q) := by
  refine .ask fun env => (follows_target hr env hab).bind fun place => ?_
  rw [Typed.Expr.type_rename]
  exact (follows_expectClass env hpq _ _ _).bind fun _ => .ok _

omit hr in
theorem follows_breakLoop (hpq : R.starts p q) :
    Checker.Follows R r (Typed.Stmt.rename r) (breakLoop p) (breakLoop q) :=
  .ask fun _ => .ite (.ok Typed.Stmt.breakLoop) (.fault hpq (.refl rfl))

theorem follows_giveBack {v w : Option Expr} (hvw : Option.Rel (Expr.Alike R) v w)
    (hpq : R.starts p q) : Checker.Follows R r (Typed.Stmt.rename r) (giveBack v p)
      (giveBack (w.map (Expr.rename r)) q) := by
  refine .ask fun env => ?_
  rw [show (env.rename r).scopes.function = env.scopes.function.map (Function.rename r) from rfl]
  cases env.scopes.function with
  | none => exact .fault hpq (.refl rfl)
  | some f =>
    cases hvw with
    | none => exact .ite (.ok (Typed.Stmt.giveBack none)) (.fault hpq (.refl rfl))
    | some hab =>
      refine .ite (.fault hpq (.refl rfl)) ((follows_expr hr env hab).bind fun v => ?_)
      rw [Expr.span_rename]
      exact (follows_expectAssignable env hab.span.start v f.result).bind fun _ => .ok _

variable {as bs : List Binding} (has : List.Forall₂ (Binding.Alike R) as bs)

include has

theorem follows_fields (env : Env) : Follows R r id (fields env as)
    (fields (env.rename r) (bs.map (Binding.renameField r))) := by
  induction has with
  | nil => exact .refl _
  | cons hab _ ih =>
    rw [List.map_cons, fields, fields, hab.name]
    exact (follows_resolve hr env hab.type).bind fun _ => ih.bind fun _ => .refl _

theorem follows_struct (name : String) (hpq : R.starts p q) :
    Checker.Follows R r (Typed.Stmt.rename r) (struct name as p)
      (struct (r name) (bs.map (Binding.renameField r)) q) := by
  refine .get fun s => ?_
  have hid : (s.rename r).env.types.nextId = s.env.types.nextId := s.env.types.nextId_rename r
  rw [hid]
  refine (Checker.Follows.change fun s => ?_).bind fun _ => ?_
  · change State.mk ⟨_, (s.env.types.rename r).declare (r name)⟩ _ = _
    rw [TypeTable.declare_rename]
    rfl
  refine (Checker.Follows.declare hr hpq name (.type (.struct _))).bind fun _ => ?_
  refine (Checker.Follows.ask fun env => follows_fields hr has env).bind fun fields => ?_
  refine .get fun s' => ?_
  obtain ⟨types, hdefine, hrenamed⟩ | ⟨c, c', hdefine, hrenamed, hcause⟩ :=
    s'.env.types.define_rename r s.env.types.nextId fields
  · rw [hdefine, show (s'.rename r).env.types.define _ (id fields) = _ from hrenamed]
    exact (Checker.Follows.set (s := ⟨⟨s'.env.scopes, types⟩, s'.nextId⟩)).bind fun _ => .pure _
  · rw [hdefine, show (s'.rename r).env.types.define _ (id fields) = _ from hrenamed]
    exact (Checker.Follows.throw (f := id) hpq hcause).bind fun _ => .pure _

theorem follows_parameters (ts : List Ty) :
    Checker.Follows R r (List.map (Variable.rename r)) (parameters as ts)
      (parameters (bs.map (Binding.renameParam r)) ts) := by
  induction has generalizing ts with
  | nil => exact .pure []
  | cons hab _ ih =>
    cases ts with
    | nil => exact .pure []
    | cons t ts =>
      rw [List.map_cons, parameters, parameters, hab.name]
      refine (Checker.Follows.declareVariable hr hab.span.start _ false t).bind fun v => ?_
      exact (ih ts).bind fun vs => .pure (v :: vs)

theorem follows_function {t u : Option TypeExpr} (htu : Option.Rel (TypeExpr.Alike R) t u)
    (name : String) (hpq : R.starts p q) :
    Checker.Follows R r (Function.rename r) (function name as t p)
      (function (r name) (bs.map (Binding.renameParam r)) (u.map (TypeExpr.rename r)) q) := by
  have htypes : List.Forall₂ (TypeExpr.Alike R) (as.map (·.type)) (bs.map (·.type)) := by
    induction has with
    | nil => exact .nil
    | cons hab _ ih => exact .cons hab.type ih
  have hsignature : ∀ env : Env, Follows R r id (signature env as t)
      (signature (env.rename r) (bs.map (Binding.renameParam r))
        (u.map (TypeExpr.rename r))) := by
    intro env
    have hrenamed : (bs.map (Binding.renameParam r)).map (·.type) =
        TypeExpr.renameAll r (bs.map (·.type)) := by
      rw [TypeExpr.renameAll_eq, List.map_map, List.map_map]
      rfl
    unfold signature
    rw [hrenamed]
    refine (follows_resolveAll hr env htypes).bind fun _ => ?_
    cases htu with
    | none => exact .refl _
    | some ht => exact (follows_resolve hr env ht).bind fun _ => .refl _
  refine (Checker.Follows.ask hsignature).bind fun sig => Checker.Follows.freshId.bind fun id => ?_
  exact (Checker.Follows.declare hr hpq name (.function ⟨id, name, sig.1, sig.2⟩)).bind fun _ =>
    .pure _

end

mutual

theorem follows_stmt (hr : Function.Injective r) : ∀ {a b : Stmt}, a.Alike R b →
    Checker.Follows R r (Typed.Stmt.rename r) (stmt a) (stmt (b.rename r))
  | .declare _ _ _ _ _, _, h => by
    cases h with
    | declare hvalue hs =>
      rw [Stmt.rename, stmt, stmt]
      refine (Checker.Follows.ask fun env => follows_expr hr env hvalue).bind fun value => ?_
      rw [Typed.Expr.type_rename]
      exact (Checker.Follows.declareVariable hr hs.start _ _ _).bind fun _ => .pure _
  | .struct _ _ _, _, h => by
    cases h with
    | struct hfields hs =>
      rw [Stmt.rename, stmt, stmt]
      exact follows_struct hr hfields _ hs.start
  | .function _ _ _ (.mk _ _) _, _, h => by
    cases h with
    | function hparams hresult hbody hs =>
      cases hbody with
      | mk hbody _ =>
        rw [Stmt.rename, Block.rename, stmt, stmt]
        refine (follows_function hr hparams hresult _ hs.start).bind fun f => ?_
        refine (Checker.Follows.inScope (.function f) (f := Prod.map (List.map (Variable.rename r))
          (Typed.Stmt.renameAll r)) ?_).bind fun _ => .pure _
        refine (follows_parameters hr hparams f.params).bind fun vs => ?_
        exact (follows_stmts hr hbody).bind fun ss => .pure (vs, ss)
  | .assign _ _ _ _, _, h => by
    cases h with
    | assign htarget hvalue _ =>
      rw [Stmt.rename, stmt, stmt]
      exact (follows_assignment hr htarget hvalue).bind fun _ => .pure _
  | .increment _ _, _, h => by
    cases h with
    | increment htarget hs =>
      rw [Stmt.rename, stmt, stmt]
      exact (follows_counted hr htarget hs.start).bind fun _ => .pure _
  | .decrement _ _, _, h => by
    cases h with
    | decrement htarget hs =>
      rw [Stmt.rename, stmt, stmt]
      exact (follows_counted hr htarget hs.start).bind fun _ => .pure _
  | .breakLoop _, _, h => by
    cases h with
    | breakLoop hs =>
      rw [Stmt.rename, stmt, stmt]
      exact follows_breakLoop hs.start
  | .giveBack _ _, _, h => by
    cases h with
    | giveBack hvalue hs =>
      rw [Stmt.rename, stmt, stmt]
      exact follows_giveBack hr hvalue hs.start
  | .branch _ (.mk _ _) _ _, _, h => by
    cases h with
    | branch htest hbody hrest _ =>
      cases hbody with
      | mk hbody _ =>
        rw [Stmt.rename, Block.rename, stmt, stmt]
        refine (follows_condition hr htest).bind fun test => ?_
        refine (Checker.Follows.inScope .block (follows_stmts hr hbody)).bind fun yes => ?_
        refine (follows_alternative hr hrest).bind fun no => ?_
        rw [typedBranch_rename]
        exact .pure _
  | .whileLoop _ (.mk _ _) _, _, h => by
    cases h with
    | whileLoop htest hbody _ =>
      cases hbody with
      | mk hbody _ =>
        rw [Stmt.rename, Block.rename, stmt, stmt]
        refine (follows_condition hr htest).bind fun test => ?_
        exact (Checker.Follows.inScope .loop (follows_stmts hr hbody)).bind fun _ => .pure _
  | .repeatLoop _ (.mk _ _) _, _, h => by
    cases h with
    | repeatLoop hcount hbody _ =>
      cases hbody with
      | mk hbody _ =>
        rw [Stmt.rename, Block.rename, stmt, stmt]
        refine (follows_integer hr hcount).bind fun count => ?_
        exact (Checker.Follows.inScope .loop (follows_stmts hr hbody)).bind fun _ => .pure _
  | .rangeLoop _ _ _ _ (.mk _ _) _, _, h => by
    cases h with
    | rangeLoop hlow hhigh hbody hs =>
      cases hbody with
      | mk hbody _ =>
        rw [Stmt.rename, Block.rename, stmt, stmt]
        refine (follows_integer hr hlow).bind fun low => ?_
        refine (follows_integer hr hhigh).bind fun high => ?_
        refine (Checker.Follows.inScope .loop
          (f := Prod.map (Variable.rename r) (Typed.Stmt.renameAll r)) ?_).bind fun _ => .pure _
        refine (Checker.Follows.declareVariable hr hs.start _ _ _).bind fun v => ?_
        exact (follows_stmts hr hbody).bind fun ss => .pure (v, ss)
  | .eachLoop _ _ (.mk _ _) _, _, h => by
    cases h with
    | eachLoop hcollection hbody hs =>
      cases hbody with
      | mk hbody _ =>
        rw [Stmt.rename, Block.rename, stmt, stmt, Expr.span_rename]
        refine (Checker.Follows.ask fun env =>
          follows_expr hr env hcollection).bind fun collection => ?_
        rw [Typed.Expr.type_rename]
        refine (Checker.Follows.ask fun env =>
          follows_expectArray env hcollection.span.start collection.type).bind fun element => ?_
        refine (Checker.Follows.inScope .loop
          (f := Prod.map (Variable.rename r) (Typed.Stmt.renameAll r)) ?_).bind fun _ => .pure _
        refine (Checker.Follows.declareVariable hr hs.start _ _ _).bind fun v => ?_
        exact (follows_stmts hr hbody).bind fun ss => .pure (v, ss)
  | .perform _ _, _, h => by
    cases h with
    | perform hcall _ =>
      rw [Stmt.rename, stmt, stmt]
      exact (Checker.Follows.ask fun env => follows_expr hr env hcall).bind fun _ => .pure _

theorem follows_alternative (hr : Function.Injective r) : ∀ {a b : Alternative}, a.Alike R b →
    Checker.Follows R r (Option.map (Typed.Stmt.renameAll r)) (alternative a)
      (alternative (b.rename r))
  | .nothing, _, h => by
    cases h
    exact .pure none
  | .otherwise (.mk _ _), _, h => by
    cases h with
    | otherwise hbody =>
      cases hbody with
      | mk hbody _ =>
        rw [Alternative.rename, Block.rename, alternative, alternative]
        exact (Checker.Follows.inScope .block (follows_stmts hr hbody)).bind fun ss =>
          .pure (some ss)
  | .elseIf _ (.mk _ _) _ _, _, h => by
    cases h with
    | elseIf htest hbody hrest _ =>
      cases hbody with
      | mk hbody _ =>
        rw [Alternative.rename, Block.rename, alternative, alternative]
        refine (follows_condition hr htest).bind fun test => ?_
        refine (Checker.Follows.inScope .block (follows_stmts hr hbody)).bind fun yes => ?_
        refine (follows_alternative hr hrest).bind fun no => ?_
        rw [typedBranch_rename]
        exact .pure (some [typedBranch test yes no])

theorem follows_stmts (hr : Function.Injective r) : ∀ {as bs : List Stmt},
    List.Forall₂ (Stmt.Alike R) as bs →
      Checker.Follows R r (Typed.Stmt.renameAll r) (stmts as) (stmts (Stmt.renameAll r bs))
  | [], _, h => by
    cases h
    exact .pure []
  | _ :: _, _, h => by
    cases h with
    | cons hab has =>
      rw [Stmt.renameAll, stmts, stmts]
      refine (follows_stmt hr hab).bind fun s => ?_
      exact (follows_stmts hr has).bind fun ss => .pure (s :: ss)

end

/-! ## Programs -/

/-- **Programs that are alike but for their names are judged alike**: the second typed program is
the first one renamed, or both have faults of meaning, of one kind, at places that correspond. -/
theorem follows_program (hr : Function.Injective r) (lib : Library) {a b : Block}
    (h : List.Forall₂ (Stmt.Alike R) a.body b.body) :
    Follows R r (Typed.Program.rename r) (program lib a)
      (program (lib.rename r) (b.rename r)) := by
  have hinitial : State.initial (lib.rename r) = (State.initial lib).rename r := by
    change State.mk ⟨_, _⟩ _ = _
    rw [Library.scopes_rename]
    rfl
  unfold program
  rw [Block.body_rename, hinitial]
  obtain ⟨ss, s, ha, hb⟩ | ⟨⟨c, p⟩, ⟨c', q⟩, s, ha, hb, hplace, hcause⟩ :=
    follows_stmts hr h (.initial lib)
  · rw [ha, hb]
    exact .ok (Typed.Program.mk ss s.env.types)
  · rw [ha, hb]
    exact .fault hplace hcause

/-- Programs that are alike have one typed program, or one fault, at places that correspond. -/
theorem agree_program (lib : Library) {a b : Block}
    (h : List.Forall₂ (Stmt.Alike R) a.body b.body) :
    Verdicts R (· = ·) (program lib a) (program lib b) := by
  have hfollows := follows_program (r := id) Function.injective_id lib h
  rw [Library.rename_id, Block.rename_id] at hfollows
  generalize program lib a = x at hfollows
  generalize program lib b = y at hfollows
  cases hfollows with
  | ok p => exact .ok p.rename_id.symm
  | fault hplace hcause => exact .error ⟨hcause.eq_of_id rfl, hplace⟩

end Quill.Check
