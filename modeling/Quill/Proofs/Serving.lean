import Quill.Proofs.Bindings
import Quill.Proofs.Passing
import Quill.Proofs.Renumbering

/-!
# Scopes that take the place of others

Checking asks little of the open scopes: what a name stands for, whether the innermost scope has a
name already, whether a loop is around and which function. It never sees how many scopes there are.
`Scopes.ServedBy ρ s s'` says that `s'` answers as `s` does, up to the identities, and has no name
in its innermost scope that `s` has not. Then whatever passes in `s` passes in `s'`, and comes out
with other identities. The converse fails: a name may be declared in an inner scope which the outer
one has already.

Results:
* `resolve_foundBy`, **`expr_foundBy`**: annotations and expressions, faults included.
* **`Checks.servedBy`**: statements that pass.
-/

namespace Quill

variable {ρ : Renumbering}

/-! ## Scopes -/

namespace Scopes

/-- Under each name the second scopes find what the first do, up to its identity. -/
def FoundBy (ρ : Renumbering) (s s' : Scopes) : Prop :=
  ∀ name, s'.find? name = (s.find? name).map (Entity.renumber ρ)

/-- The second scopes answer as the first do, up to the identities, and have no name in the
innermost scope that the first have not. -/
structure ServedBy (ρ : Renumbering) (s s' : Scopes) : Prop where
  find : s.FoundBy ρ s'
  free : ∀ name, s.inner.find? name = none → s'.inner.find? name = none
  inLoop : s'.inLoop = s.inLoop
  function : s'.function = s.function.map (Function.renumber ρ)

variable {s s' : Scopes}

theorem find?_define (s : Scopes) (name : String) (x : Entity) (other : String) :
    (s.define name x).find? other = if other = name then some x else s.find? other := by
  have h : (s.bindAll [(name, x)]).find? other = ([(name, x)].lookup other).or (s.find? other) :=
    find?_bindAll
  change (s.bindAll [(name, x)]).find? other = _
  rw [h, List.lookup_cons, List.lookup_nil]
  by_cases heq : other = name
  · simp [heq]
  · rw [beq_false_of_ne heq, if_neg heq]
    rfl

theorem find?_inner_define (s : Scopes) (name : String) (x : Entity) (other : String) :
    (s.define name x).inner.find? other = none ↔ other ≠ name ∧ s.inner.find? other = none := by
  have h : (s.bindAll [(name, x)]).inner.find? other = none ↔
      other ∉ [(name, x)].map Prod.fst ∧ s.inner.find? other = none := find?_inner_bindAll_eq_none
  rw [List.map_singleton, List.mem_singleton] at h
  exact h

namespace ServedBy

theorem define (h : s.ServedBy ρ s') (name : String) (x : Entity) :
    (s.define name x).ServedBy ρ (s'.define name (x.renumber ρ)) where
  find other := by
    rw [find?_define, find?_define, h.find]
    split_ifs <;> rfl
  free other hfree := by
    rw [find?_inner_define] at hfree ⊢
    exact ⟨hfree.1, h.free other hfree.2⟩
  inLoop := h.inLoop
  function := h.function

theorem push (h : s.ServedBy ρ s') (kind : ScopeKind) :
    (s.push kind).ServedBy ρ (s'.push (kind.renumber ρ)) where
  find name := by rw [find?_push, find?_push, h.find]
  free name _ := by cases kind <;> rfl
  inLoop := by
    cases kind with
    | block => exact h.inLoop
    | _ => rfl
  function := by
    cases kind with
    | function f => rfl
    | _ => exact h.function

end ServedBy

end Scopes

namespace Check

open Syntax

/-! ## Annotations and expressions -/

theorem lookup_foundBy {s s' : Scopes} (h : s.FoundBy ρ s') (name : String) (p : Position) :
    s'.lookup name p = (s.lookup name p).map (Entity.renumber ρ) := by
  unfold Scopes.lookup
  rw [h name]
  cases s.find? name <;> rfl

mutual

/-- Annotations denote the same type: types have no identity. -/
theorem resolve_foundBy {env : Env} {scopes : Scopes} (h : env.scopes.FoundBy ρ scopes)
    (a : TypeExpr) : resolve ⟨scopes, env.types⟩ a = resolve env a := by
  cases a with
  | named name span =>
    rw [resolve, resolve, lookup_foundBy h]
    cases env.scopes.lookup name span.start with
    | error d => rfl
    | ok entity => cases entity <;> rfl
  | array element span => rw [resolve, resolve, resolve_foundBy h element]
  | optional base span => rw [resolve, resolve, resolve_foundBy h base]
  | sum alternatives span => rw [resolve, resolve, resolveAll_foundBy h alternatives]
  | function params result span =>
    rw [resolve, resolve, resolveAll_foundBy h params, resolve_foundBy h result]

theorem resolveAll_foundBy {env : Env} {scopes : Scopes} (h : env.scopes.FoundBy ρ scopes)
    (as : List TypeExpr) : resolveAll ⟨scopes, env.types⟩ as = resolveAll env as := by
  cases as with
  | nil => rfl
  | cons a as => rw [resolveAll, resolveAll, resolve_foundBy h a, resolveAll_foundBy h as]

end

theorem fields_foundBy {env : Env} {scopes : Scopes} (h : env.scopes.FoundBy ρ scopes)
    (bs : List Binding) : fields ⟨scopes, env.types⟩ bs = fields env bs := by
  induction bs with
  | nil => rfl
  | cons b bs ih => rw [fields, fields, resolve_foundBy h, ih]

theorem signature_foundBy {env : Env} {scopes : Scopes} (h : env.scopes.FoundBy ρ scopes)
    (params : List Binding) (result : Option TypeExpr) :
    signature ⟨scopes, env.types⟩ params result = signature env params result := by
  unfold signature
  rw [resolveAll_foundBy h]
  cases result with
  | none => rfl
  | some t => simp only [resolve_foundBy h]

section

variable {α β γ δ : Type} {x : Except Diagnostic α} {f : α → β} {g : γ → δ}
  {k : α → Except Diagnostic γ}

/-- Two results of which the second is a map of the first, one after the other. -/
theorem map_bind_eq {l : β → Except Diagnostic δ} (h : ∀ a, l (f a) = (k a).map g) :
    (x.map f >>= l) = (x >>= k).map g := by
  cases x with
  | ok a => exact h a
  | error d => rfl

theorem bind_eq_map_bind {l : α → Except Diagnostic δ} (h : ∀ a, l a = (k a).map g) :
    (x >>= l) = (x >>= k).map g := by
  cases x with
  | ok a => exact h a
  | error d => rfl

end

theorem binaryType_foundBy (env : Env) (scopes : Scopes) (op : BinaryOp) (l r : Typed.Expr)
    (p q : Position) : binaryType ⟨scopes, env.types⟩ op (l.renumber ρ) (r.renumber ρ) p q =
      binaryType env op l r p q := by
  unfold binaryType Env.expectAssignable
  rw [Typed.Expr.type_renumber, Typed.Expr.type_renumber]
  rfl

theorem member_foundBy (env : Env) (scopes : Scopes) (object : Typed.Expr) (field : String)
    (chained : Bool) (p q : Position) :
    member ⟨scopes, env.types⟩ (object.renumber ρ) field chained p q =
      (member env object field chained p q).map (Typed.Expr.renumber ρ) := by
  unfold member
  rw [Typed.Expr.type_renumber]
  cases receiver? chained object.type with
  | none => rfl
  | some id =>
    dsimp only
    cases (env.types.get id).field? field <;> rfl

theorem constructed?_foundBy {env : Env} {scopes : Scopes} (h : env.scopes.FoundBy ρ scopes)
    (a : Expr) : constructed? ⟨scopes, env.types⟩ a = constructed? env a := by
  cases a with
  | symbol name span =>
    simp only [constructed?, lookup_foundBy h]
    cases env.scopes.lookup name span.start with
    | error d => rfl
    | ok entity => cases entity <;> rfl
  | _ => rfl

theorem elementType_renumberAll (es : List Typed.Expr) :
    elementType (Typed.Expr.renumberAll ρ es) = elementType es := by
  have htypes : (Typed.Expr.renumberAll ρ es).map (·.type) = es.map (·.type) := by
    rw [Typed.Expr.renumberAll_eq_map, List.map_map]
    exact List.map_congr_left fun e _ => e.type_renumber ρ
  unfold elementType
  rw [htypes]

mutual

/-- **Expressions are checked alike**, down to their faults. -/
theorem expr_foundBy {env : Env} {scopes : Scopes} (h : env.scopes.FoundBy ρ scopes) (a : Expr) :
    expr ⟨scopes, env.types⟩ a = (expr env a).map (Typed.Expr.renumber ρ) := by
  cases a with
  | int | float | string | bool => rfl
  | symbol name span =>
    rw [expr, expr, symbol, symbol, lookup_foundBy h]
    cases env.scopes.lookup name span.start with
    | error d => rfl
    | ok entity => cases entity <;> rfl
  | binary op l r span =>
    rw [expr, expr, expr_foundBy h l, expr_foundBy h r]
    refine map_bind_eq fun left => map_bind_eq fun right => ?_
    rw [binaryType_foundBy]
    exact bind_eq_map_bind fun _ => rfl
  | unary op a span =>
    rw [expr, expr, expr_foundBy h a]
    refine map_bind_eq fun operand => ?_
    rw [Typed.Expr.type_renumber]
    exact bind_eq_map_bind fun _ => rfl
  | conditional t y n span =>
    rw [expr, expr, expr_foundBy h t, expr_foundBy h y, expr_foundBy h n]
    refine map_bind_eq fun test => ?_
    rw [Typed.Expr.type_renumber]
    refine bind_eq_map_bind fun _ => map_bind_eq fun yes => map_bind_eq fun no => ?_
    rw [Typed.Expr.type_renumber, Typed.Expr.type_renumber]
    exact bind_eq_map_bind fun _ => rfl
  | array as span =>
    rw [expr, expr, exprs_foundBy h as]
    refine map_bind_eq fun elements => ?_
    rw [elementType_renumberAll]
    rfl
  | emptyArray t span =>
    rw [expr, expr, resolve_foundBy h t]
    exact bind_eq_map_bind fun _ => rfl
  | absent t span =>
    rw [expr, expr, resolve_foundBy h t]
    exact bind_eq_map_bind fun _ => rfl
  | subscript a i span =>
    rw [expr, expr, expr_foundBy h a, expr_foundBy h i]
    refine map_bind_eq fun items => ?_
    rw [Typed.Expr.type_renumber]
    refine bind_eq_map_bind fun element => map_bind_eq fun index => ?_
    rw [Typed.Expr.type_renumber]
    exact bind_eq_map_bind fun _ => rfl
  | member a field chained span =>
    rw [expr, expr, expr_foundBy h a]
    exact map_bind_eq fun object => member_foundBy env scopes object field chained _ _
  | call c as span =>
    rw [expr, expr, constructed?_foundBy h, expr_foundBy h c]
    refine bind_eq_map_bind fun made => ?_
    cases made with
    | none =>
      refine map_bind_eq fun callee => ?_
      rw [Typed.Expr.type_renumber]
      refine bind_eq_map_bind fun sig => bind_eq_map_bind fun _ => ?_
      rw [arguments_foundBy h sig.1 as]
      exact map_bind_eq fun _ => rfl
    | some made =>
      refine bind_eq_map_bind fun id => bind_eq_map_bind fun _ => ?_
      rw [arguments_foundBy h _ as]
      exact map_bind_eq fun _ => rfl

theorem exprs_foundBy {env : Env} {scopes : Scopes} (h : env.scopes.FoundBy ρ scopes)
    (as : List Expr) :
    exprs ⟨scopes, env.types⟩ as = (exprs env as).map (Typed.Expr.renumberAll ρ) := by
  cases as with
  | nil => rfl
  | cons a as =>
    rw [exprs, exprs, expr_foundBy h a, exprs_foundBy h as]
    exact map_bind_eq fun _ => map_bind_eq fun _ => rfl

theorem arguments_foundBy {env : Env} {scopes : Scopes} (h : env.scopes.FoundBy ρ scopes)
    (params : List Ty) (as : List Expr) : arguments ⟨scopes, env.types⟩ params as =
      (arguments env params as).map (Typed.Expr.renumberAll ρ) := by
  cases as with
  | nil => rfl
  | cons a as =>
    cases params with
    | nil => rfl
    | cons t ts =>
      rw [arguments, arguments, expr_foundBy h a, arguments_foundBy h ts as]
      refine map_bind_eq fun arg => ?_
      unfold Env.expectAssignable
      rw [Typed.Expr.type_renumber]
      exact bind_eq_map_bind fun _ => map_bind_eq fun _ => rfl

end

/-! ## States -/

open Checker Renumbering

/-- The scopes of the second state answer as those of the first do, once the identities from `n` on
are moved up by `k`. The structs are the same, and new identities are `k` ahead. -/
structure State.ServedBy (n k : Nat) (s s' : State) : Prop where
  scopes : s.env.scopes.ServedBy (shift n k) s'.env.scopes
  types : s'.env.types = s.env.types
  least : n ≤ s.nextId
  nextId : s'.nextId = s.nextId + k

namespace State.ServedBy

variable {n k : Nat} {s s' s₁ s₁' : State} (h : s.ServedBy n k s')

include h

theorem env_eq : s'.env = ⟨s'.env.scopes, s.env.types⟩ := by rw [← h.types]

theorem expr {a : Expr} {e : Typed.Expr} (he : expr s.env a = .ok e) :
    Check.expr s'.env a = .ok (e.renumber (shift n k)) := by
  rw [h.env_eq, expr_foundBy h.scopes.find, he]
  rfl

theorem signature {params : List Binding} {result : Option TypeExpr} {sig : List Ty × Ty}
    (hsig : signature s.env params result = .ok sig) :
    Check.signature s'.env params result = .ok sig := by
  rw [h.env_eq, signature_foundBy h.scopes.find, hsig]

/-- The next variable of the one is the next variable of the other. -/
theorem variable_renumber (name : String) (readOnly : Bool) (t : Ty) :
    Variable.renumber (shift n k) ⟨s.nextId, name, readOnly, t⟩ =
      ⟨s'.nextId, name, readOnly, t⟩ := by
  rw [Variable.renumber, shift_of_le h.least, h.nextId]

theorem function_renumber (name : String) (params : List Ty) (result : Ty) :
    Function.renumber (shift n k) ⟨s.nextId, name, params, result⟩ =
      ⟨s'.nextId, name, params, result⟩ := by
  rw [Function.renumber, shift_of_le h.least, h.nextId]

theorem introduce (name : String) (x : Entity) :
    (s.introduce name x).ServedBy n k (s'.introduce name (x.renumber (shift n k))) where
  scopes := h.scopes.define name x
  types := h.types
  least := Nat.le_succ_of_le h.least
  nextId := by
    have := h.nextId
    simp only [State.introduce]
    omega

theorem structEnv (name : String) :
    (s.structEnv name).scopes.ServedBy (shift n k) (s'.structEnv name).scopes := by
  unfold State.structEnv
  rw [h.types]
  exact h.scopes.define name (.type (.struct s.env.types.nextId))

theorem fields {name : String} {bs : List Binding} {fs : List Field}
    (hfields : fields (s.structEnv name) bs = .ok fs) :
    Check.fields (s'.structEnv name) bs = .ok fs := by
  have henv : s'.structEnv name = ⟨(s'.structEnv name).scopes, (s.structEnv name).types⟩ := by
    unfold State.structEnv
    rw [h.types]
  rw [henv, fields_foundBy (h.structEnv name).find, hfields]

theorem introduceStruct (name : String) (fs : List Field) :
    (s.introduceStruct name fs).ServedBy n k (s'.introduceStruct name fs) where
  scopes := h.structEnv name
  types := by
    unfold State.introduceStruct
    rw [h.types]
  least := h.least
  nextId := h.nextId

theorem enter (kind : ScopeKind) :
    (s.enter kind).ServedBy n k (s'.enter (kind.renumber (shift n k))) where
  scopes := h.scopes.push kind
  types := h.types
  least := h.least
  nextId := h.nextId

/-- A scope that is left takes its names with it, on both sides. -/
theorem leave {kind kind' : ScopeKind} {types types' : TypeTable} {xs xs' : List Entity}
    (h₁ : s₁.ServedBy n k s₁') (hbinds : Binds types (s.enter kind) xs s₁)
    (hbinds' : Binds types' (s'.enter kind') xs' s₁') : s₁.leave.ServedBy n k s₁'.leave where
  scopes := by
    rw [hbinds.leave.scopes, hbinds'.leave.scopes]
    exact h.scopes
  types := h₁.types
  least := h₁.least
  nextId := h₁.nextId

end State.ServedBy

theorem parameters_servedBy {n k : Nat} : ∀ {bs : List Binding} {ts : List Ty} {s s' s₁ : State}
    {vs : List Variable}, s.ServedBy n k s' → parameters bs ts s = .ok vs s₁ →
    ∃ s₁', parameters bs ts s' = .ok (vs.map (Variable.renumber (shift n k))) s₁' ∧
      s₁.ServedBy n k s₁' := by
  intro bs
  induction bs with
  | nil =>
    intro ts s s' s₁ vs h hrun
    obtain ⟨rfl, rfl⟩ := run_pure_ok.mp hrun
    exact ⟨s', rfl, h⟩
  | cons b bs ih =>
    intro ts s s' s₁ vs h hrun
    cases ts with
    | nil =>
      obtain ⟨rfl, rfl⟩ := run_pure_ok.mp hrun
      exact ⟨s', rfl, h⟩
    | cons t ts =>
      simp only [parameters, run_bind_ok, run_pure_ok] at hrun
      obtain ⟨v, _, hv, vs, _, hvs, rfl, rfl⟩ := hrun
      obtain ⟨rfl, hnew, rfl⟩ := declareVariable_eq hv
      obtain ⟨s₁', hrest, h₁⟩ := ih (h.introduce b.name _) hvs
      rw [Entity.renumber, h.variable_renumber] at hrest
      refine ⟨s₁', ?_, h₁⟩
      rw [List.map_cons, h.variable_renumber]
      refine run_bind_ok.mpr ⟨_, _, run_declareVariable (h.scopes.free _ hnew) _ _, ?_⟩
      exact run_bind_ok.mpr ⟨_, _, hrest, rfl⟩

/-! ## Statements -/

/-- The piece with other identities in what came out. -/
def Piece.renumber (ρ : Renumbering) : Piece → Piece
  | .stmt a t => .stmt a (t.renumber ρ)
  | .stmts as ts => .stmts as (Typed.Stmt.renumberAll ρ ts)
  | .alternative a no => .alternative a (no.map (Typed.Stmt.renumberAll ρ))

theorem renumber_typedBranch (e : Typed.Expr) (yes : List Typed.Stmt)
    (no : Option (List Typed.Stmt)) : (typedBranch e yes no).renumber ρ =
      typedBranch (e.renumber ρ) (Typed.Stmt.renumberAll ρ yes)
        (no.map (Typed.Stmt.renumberAll ρ)) := by
  cases no <;> rfl

theorem targetFault?_renumber (e : Typed.Expr) : targetFault? (e.renumber ρ) = targetFault? e := by
  cases e with
  | member object field chained t => cases chained <;> rfl
  | _ => rfl

/-- What a check binds, by the table that it leaves. -/
theorem Checks.binds_self {s s' : State} {o : Piece} (h : Checks s o s') :
    Binds s'.env.types s o.declared s' := h.binds List.prefix_rfl

/-- The same with an iterator in front. -/
theorem Checks.binds_loop {s s₁ : State} {o : Piece} {iterator : String} {v : Variable}
    (hv : v.name = iterator)
    (h : Checks ((s.enter .loop).introduce iterator (.variable v)) o s₁) :
    Binds s₁.env.types (s.enter .loop) (.variable v :: o.declared) s₁ :=
  (Binds.var hv rfl).trans h.binds_self

/-- **What passes in one state passes in every state that serves it**, with other identities. By
induction on the rules; scopes that are entered and left are the same afterwards, so that only
what is bound behind them has to be followed. -/
theorem Checks.servedBy {n k : Nat} {s s₂ : State} {o : Piece} (h : Checks s o s₂) :
    ∀ {s' : State}, s.ServedBy n k s' →
      ∃ s₂', Checks s' (o.renumber (shift n k)) s₂' ∧ s₂.ServedBy n k s₂' := by
  induction h with
  | declare hvalue hv hnew =>
    intro s' h
    refine ⟨_, .declare (h.expr hvalue) ?_ (h.scopes.free _ hnew), h.introduce _ _⟩
    rw [hv, h.variable_renumber, Typed.Expr.type_renumber]
  | @struct s name bindings span fs types hnew hfields hdefine =>
    intro s' h
    rw [← h.types] at hdefine
    have hstruct : Checks s' (.stmt (.struct name bindings span) (.struct s'.env.types.nextId))
        (s'.introduceStruct name fs) :=
      .struct (h.scopes.free _ hnew) (h.fields hfields) hdefine
    rw [h.types] at hstruct
    exact ⟨_, hstruct, h.introduceStruct name fs⟩
  | @function s s₁ s₂ name params result body span ts r f vs us hsig hf hnew hparams hbody ih =>
    intro s' h
    have hf' : f.renumber (shift n k) = ⟨s'.nextId, name, ts, r⟩ := by rw [hf, h.function_renumber]
    have hknown := h.introduce name (.function f)
    obtain ⟨s₁', hparams', h₁⟩ := parameters_servedBy (hknown.enter (.function f)) hparams
    obtain ⟨s₂', hbody', h₂⟩ := ih h₁
    refine ⟨_, .function (h.signature hsig) hf' (h.scopes.free _ hnew) hparams' hbody', ?_⟩
    exact hknown.leave h₂ ((parameters_binds hparams).trans hbody.binds_self)
      ((parameters_binds hparams').trans hbody'.binds_self)
  | assign htarget hplace hvalue hfits =>
    intro s' h
    refine ⟨s', .assign (h.expr htarget) ?_ (h.expr hvalue) ?_, h⟩
    · rwa [targetFault?_renumber]
    · rwa [Typed.Expr.type_renumber, Typed.Expr.type_renumber]
  | increment htarget hplace hint =>
    intro s' h
    refine ⟨s', .increment (h.expr htarget) ?_ ?_, h⟩
    · rwa [targetFault?_renumber]
    · rwa [Typed.Expr.type_renumber]
  | decrement htarget hplace hint =>
    intro s' h
    refine ⟨s', .decrement (h.expr htarget) ?_ ?_, h⟩
    · rwa [targetFault?_renumber]
    · rwa [Typed.Expr.type_renumber]
  | breakLoop hloop =>
    intro s' h
    exact ⟨s', .breakLoop (h.scopes.inLoop.trans hloop), h⟩
  | leave hf hvoid =>
    intro s' h
    have hf' := h.scopes.function
    rw [hf] at hf'
    exact ⟨s', .leave hf' hvoid, h⟩
  | giveBack hf hvoid hvalue hfits =>
    intro s' h
    have hf' := h.scopes.function
    rw [hf] at hf'
    refine ⟨s', .giveBack hf' hvoid (h.expr hvalue) ?_, h⟩
    rwa [Typed.Expr.type_renumber]
  | branch htest hbool hyes hno ihyes ihno =>
    intro s' h
    obtain ⟨s₁', hyes', h₁⟩ := ihyes (h.enter .block)
    obtain ⟨s₂', hno', h₂⟩ := ihno (h.leave h₁ hyes.binds_self hyes'.binds_self)
    refine ⟨s₂', ?_, h₂⟩
    rw [Piece.renumber, renumber_typedBranch]
    exact .branch (h.expr htest) ((Typed.Expr.type_renumber _ _).trans hbool) hyes' hno'
  | whileLoop htest hbool hbody ih =>
    intro s' h
    obtain ⟨s₁', hbody', h₁⟩ := ih (h.enter .loop)
    refine ⟨_, ?_, h.leave h₁ hbody.binds_self hbody'.binds_self⟩
    exact .whileLoop (h.expr htest) ((Typed.Expr.type_renumber _ _).trans hbool) hbody'
  | repeatLoop hcount hint hbody ih =>
    intro s' h
    obtain ⟨s₁', hbody', h₁⟩ := ih (h.enter .loop)
    refine ⟨_, ?_, h.leave h₁ hbody.binds_self hbody'.binds_self⟩
    exact .repeatLoop (h.expr hcount) ((Typed.Expr.type_renumber _ _).trans hint) hbody'
  | @rangeLoop s s₁ iterator low high op body span a b v us hlow hlowInt hhigh hhighInt hv hbody
      ih =>
    intro s' h
    have hv' : v.renumber (shift n k) = ⟨s'.nextId, iterator, true, .int⟩ := by
      rw [hv, h.variable_renumber]
    obtain ⟨s₁', hbody', h₁⟩ := ih ((h.enter .loop).introduce iterator (.variable v))
    refine ⟨_, .rangeLoop (h.expr hlow) ?_ (h.expr hhigh) ?_ hv' hbody', ?_⟩
    · rwa [Typed.Expr.type_renumber]
    · rwa [Typed.Expr.type_renumber]
    · exact h.leave h₁ (hbody.binds_loop (congrArg Variable.name hv))
        (hbody'.binds_loop (congrArg Variable.name hv'))
  | @eachLoop s s₁ iterator e body span c element v us hcollection harray hv hbody ih =>
    intro s' h
    have hv' : v.renumber (shift n k) = ⟨s'.nextId, iterator, true, element⟩ := by
      rw [hv, h.variable_renumber]
    obtain ⟨s₁', hbody', h₁⟩ := ih ((h.enter .loop).introduce iterator (.variable v))
    refine ⟨_, .eachLoop (h.expr hcollection) ?_ hv' hbody', ?_⟩
    · rwa [Typed.Expr.type_renumber]
    · exact h.leave h₁ (hbody.binds_loop (congrArg Variable.name hv))
        (hbody'.binds_loop (congrArg Variable.name hv'))
  | perform he =>
    intro s' h
    exact ⟨s', .perform (h.expr he), h⟩
  | nothing =>
    intro s' h
    exact ⟨s', .nothing, h⟩
  | otherwise hbody ih =>
    intro s' h
    obtain ⟨s₁', hbody', h₁⟩ := ih (h.enter .block)
    exact ⟨_, .otherwise hbody', h.leave h₁ hbody.binds_self hbody'.binds_self⟩
  | elseIf _ ih =>
    intro s' h
    obtain ⟨s₂', hbranch', h₂⟩ := ih h
    exact ⟨s₂', .elseIf hbranch', h₂⟩
  | nil =>
    intro s' h
    exact ⟨s', .nil, h⟩
  | cons _ _ ihhead ihtail =>
    intro s' h
    obtain ⟨s₁', hhead', h₁⟩ := ihhead h
    obtain ⟨s₂', htail', h₂⟩ := ihtail h₁
    exact ⟨s₂', .cons hhead' htail', h₂⟩

end Check

end Quill
