import Quill.Proofs.Rules

/-!
# What a check that passes has done

`Checks s o s'` says that checking a piece of a program passed, what came out, and how the state
changed from `s` to `s'`. It has one rule for each kind of statement, with all that the checker
demanded of it: the expressions that were checked in the scopes of that moment, the names that had
to be new, the scope that was entered and left. What holds of all checked programs is proved from
these rules and no longer from the checker.

Results:
* `function_eq`, `struct_eq` and their like: what the parts of the checker have done.
* **`checks_of_stmts`**, **`checks_of_program`**: a check that passes obeys the rules of `Checks`.
* `Checks.exprs`: the expressions of a checked statement were checked.
* `Checked.everywhere`: what checking sees to in each expression and statement, it sees to
  everywhere.
* `program_ruled`: checked programs obey the rules.
-/

namespace Quill

namespace TypeTable

theorem modify_last {d : StructDef} (f : StructDef → StructDef) :
    ∀ ds : List StructDef, (ds ++ [d]).modify ds.length f = ds ++ [f d]
  | [] => rfl
  | _ :: ds => congrArg _ (modify_last f ds)

/-- A struct that gets its fields is the last of the table. -/
theorem define_declare {table types : TypeTable} {name : String} {fields : List Field}
    (h : (table.declare name).define table.nextId fields = .ok types) :
    types = ⟨table.structs ++ [⟨name, fields⟩]⟩ := by
  unfold define at h
  split at h
  · cases h
  · split_ifs at h
    cases h
    exact congrArg TypeTable.mk (modify_last _ table.structs)

end TypeTable

namespace Check

open Syntax Checker

variable {α β : Type} {s s' : State}

/-! ## Checkers that pass -/

theorem run_bind_ok {x : Checker α} {f : α → Checker β} {b : β} :
    (x >>= f) s = .ok b s' ↔ ∃ a s₁, x s = .ok a s₁ ∧ f a s₁ = .ok b s' := by
  show EStateM.bind x f s = _ ↔ _
  unfold EStateM.bind
  cases x s <;> simp

theorem run_pure_ok {a b : α} : (pure a : Checker α) s = .ok b s' ↔ a = b ∧ s = s' := by
  show EStateM.Result.ok a s = _ ↔ _
  simp

theorem ask_ok {f : Env → Except Diagnostic α} {a : α} (h : ask f s = .ok a s') :
    f s.env = .ok a ∧ s' = s := by
  unfold ask at h
  obtain ⟨_, _, hget, h⟩ := run_bind_ok.mp h
  cases hget
  cases hf : f s.env with
  | ok b =>
    simp only [hf] at h
    obtain ⟨rfl, rfl⟩ := run_pure_ok.mp h
    exact ⟨rfl, rfl⟩
  | error d =>
    simp only [hf] at h
    cases h

/-! ## What the parts of a check do -/

/-- The state in which the list inside a statement is checked. -/
def State.enter (s : State) (kind : ScopeKind) : State := mapScopes (·.push kind) s

/-- The state when that list is left. -/
def State.leave (s : State) : State := mapScopes Scopes.pop s

/-- The state with a name bound to a new variable or function, whose identity is used up. -/
def State.introduce (s : State) (name : String) (x : Entity) : State :=
  ⟨⟨s.env.scopes.define name x, s.env.types⟩, s.nextId + 1⟩

theorem run_inScope_ok {kind : ScopeKind} {body : Checker α} {a : α}
    (h : inScope kind body s = .ok a s') :
    ∃ s₁, body (s.enter kind) = .ok a s₁ ∧ s' = s₁.leave := by
  unfold inScope at h
  split at h
  · rename_i b s₁ hbody
    cases h
    exact ⟨s₁, hbody, rfl⟩
  · cases h

theorem declare_ok {name : String} {x : Entity} {p : Position} {u : Unit}
    (h : Checker.declare name x p s = .ok u s') :
    s.env.scopes.inner.find? name = none ∧ s' = mapScopes (·.define name x) s := by
  unfold Checker.declare at h
  obtain ⟨_, _, hget, h⟩ := run_bind_ok.mp h
  cases hget
  cases hf : s.env.scopes.inner.find? name with
  | some y =>
    simp only [Scopes.declare, hf] at h
    cases h
  | none =>
    simp only [Scopes.declare, hf] at h
    cases h
    exact ⟨rfl, rfl⟩

theorem freshId_ok {n : Nat} (h : freshId s = .ok n s') :
    n = s.nextId ∧ s' = ⟨s.env, s.nextId + 1⟩ := by
  cases h
  exact ⟨rfl, rfl⟩

/-- A variable that is declared gets the next identity, and its name is new in its scope. -/
theorem declareVariable_eq {name : String} {readOnly : Bool} {t : Ty} {p : Position} {v : Variable}
    (h : declareVariable name readOnly t p s = .ok v s') :
    v = ⟨s.nextId, name, readOnly, t⟩ ∧ s.env.scopes.inner.find? name = none ∧
      s' = s.introduce name (.variable v) := by
  unfold declareVariable at h
  simp only [run_bind_ok, run_pure_ok] at h
  obtain ⟨n, s₁, hn, _, s₂, hd, rfl, rfl⟩ := h
  obtain ⟨rfl, rfl⟩ := freshId_ok hn
  obtain ⟨hnew, rfl⟩ := declare_ok hd
  exact ⟨rfl, hnew, rfl⟩

theorem function_eq {name : String} {params : List Binding} {result : Option TypeExpr}
    {p : Position} {f : Function} (h : function name params result p s = .ok f s') :
    ∃ ts r, signature s.env params result = .ok (ts, r) ∧ f = ⟨s.nextId, name, ts, r⟩ ∧
      s.env.scopes.inner.find? name = none ∧ s' = s.introduce name (.function f) := by
  unfold function at h
  obtain ⟨⟨ts, r⟩, s₀, hask, hrest⟩ := run_bind_ok.mp h
  simp only [run_bind_ok, run_pure_ok] at hrest
  obtain ⟨n, s₁, hn, _, s₂, hd, rfl, rfl⟩ := hrest
  obtain ⟨hsig, rfl⟩ := ask_ok hask
  obtain ⟨rfl, rfl⟩ := freshId_ok hn
  obtain ⟨hnew, rfl⟩ := declare_ok hd
  exact ⟨ts, r, hsig, rfl, hnew, rfl⟩

/-- The environment in which the fields of a new struct are checked: its name is known already. -/
def State.structEnv (s : State) (name : String) : Env :=
  ⟨s.env.scopes.define name (.type (.struct s.env.types.nextId)), s.env.types.declare name⟩

/-- The state behind a new struct. -/
def State.introduceStruct (s : State) (name : String) (fs : List Field) : State :=
  ⟨⟨(s.structEnv name).scopes, ⟨s.env.types.structs ++ [⟨name, fs⟩]⟩⟩, s.nextId⟩

/-- A struct that is declared gets the next number, and its name is known to its fields. -/
theorem struct_eq {name : String} {bindings : List Binding} {p : Position} {t : Typed.Stmt}
    (h : struct name bindings p s = .ok t s') :
    ∃ fs types, t = .struct s.env.types.nextId ∧ s.env.scopes.inner.find? name = none ∧
      fields (s.structEnv name) bindings = .ok fs ∧
      (s.env.types.declare name).define s.env.types.nextId fs = .ok types ∧
      s' = s.introduceStruct name fs := by
  unfold struct at h
  obtain ⟨_, _, hget, h₁⟩ := run_bind_ok.mp h
  cases hget
  obtain ⟨_, _, hmodify, h₂⟩ := run_bind_ok.mp h₁
  cases hmodify
  obtain ⟨_, s₁, hdeclare, h₃⟩ := run_bind_ok.mp h₂
  obtain ⟨hnew, rfl⟩ := declare_ok hdeclare
  obtain ⟨fs, s₂, hask, h₄⟩ := run_bind_ok.mp h₃
  obtain ⟨hfs, rfl⟩ := ask_ok hask
  obtain ⟨_, _, hget, h₅⟩ := run_bind_ok.mp h₄
  cases hget
  cases hd : (s.env.types.declare name).define s.env.types.nextId fs with
  | error cause =>
    simp only [mapScopes, hd, run_bind_ok] at h₅
    obtain ⟨_, _, hthrow, -⟩ := h₅
    cases hthrow
  | ok types =>
    simp only [mapScopes, hd, run_bind_ok, run_pure_ok] at h₅
    obtain ⟨_, _, hset, rfl, rfl⟩ := h₅
    cases hset
    obtain rfl := TypeTable.define_declare hd
    exact ⟨fs, _, rfl, hnew, hfs, hd, rfl⟩

theorem condition_eq {e : Expr} {test : Typed.Expr} (h : condition e s = .ok test s') :
    expr s.env e = .ok test ∧ test.type = .bool ∧ s' = s := by
  obtain ⟨hask, rfl⟩ := ask_ok h
  simp only [bind_eq_ok, pure_eq_ok] at hask
  obtain ⟨_, he, _, hb, rfl⟩ := hask
  exact ⟨he, expectBool_ok hb, rfl⟩

theorem integer_eq {e : Expr} {n : Typed.Expr} (h : integer e s = .ok n s') :
    expr s.env e = .ok n ∧ n.type = .int ∧ s' = s := by
  obtain ⟨hask, rfl⟩ := ask_ok h
  simp only [bind_eq_ok, pure_eq_ok] at hask
  obtain ⟨_, he, _, hi, rfl⟩ := hask
  exact ⟨he, expectInt_ok hi, rfl⟩

theorem target_eq {env : Env} {e : Expr} {place : Typed.Expr} (h : target env e = .ok place) :
    expr env e = .ok place ∧ targetFault? place = none := by
  unfold target at h
  obtain ⟨t, ht, h⟩ := bind_eq_ok.mp h
  split at h
  · cases h
  · cases h
    exact ⟨ht, by assumption⟩

theorem assignment_eq {t v : Expr} {place source : Typed.Expr}
    (h : assignment t v s = .ok (place, source) s') :
    expr s.env t = .ok place ∧ targetFault? place = none ∧ expr s.env v = .ok source ∧
      source.type.assignable place.type = true ∧ s' = s := by
  obtain ⟨hask, rfl⟩ := ask_ok h
  simp only [bind_eq_ok, pure_eq_ok] at hask
  obtain ⟨place, hp, source, hv, _, ha, heq⟩ := hask
  cases heq
  obtain ⟨ht, hf⟩ := target_eq hp
  exact ⟨ht, hf, hv, expectAssignable_ok ha, rfl⟩

theorem counted_eq {t : Expr} {p : Position} {place : Typed.Expr}
    (h : counted t p s = .ok place s') :
    expr s.env t = .ok place ∧ targetFault? place = none ∧ place.type = .int ∧ s' = s := by
  obtain ⟨hask, rfl⟩ := ask_ok h
  simp only [bind_eq_ok, pure_eq_ok] at hask
  obtain ⟨_, hp, _, hi, rfl⟩ := hask
  obtain ⟨ht, hf⟩ := target_eq hp
  exact ⟨ht, hf, expectInt_ok hi, rfl⟩

theorem breakLoop_eq {p : Position} {t : Typed.Stmt} (h : breakLoop p s = .ok t s') :
    s.env.scopes.inLoop = true ∧ t = .breakLoop ∧ s' = s := by
  obtain ⟨hask, rfl⟩ := ask_ok h
  split at hask
  · cases hask
    exact ⟨by assumption, rfl, rfl⟩
  · cases hask

/-- A `return` has a function around it, and has a value exactly if that function gives one. -/
theorem giveBack_eq {value : Option Expr} {p : Position} {t : Typed.Stmt}
    (h : giveBack value p s = .ok t s') :
    ∃ f, s.env.scopes.function = some f ∧ s' = s ∧
      ((value = none ∧ f.result = .void ∧ t = .giveBack none) ∨
        ∃ e v, value = some e ∧ f.result ≠ .void ∧ expr s.env e = .ok v ∧
          v.type.assignable f.result = true ∧ t = .giveBack (some v)) := by
  obtain ⟨hask, rfl⟩ := ask_ok h
  split at hask
  · cases hask
  · rename_i f hf
    refine ⟨f, hf, rfl, ?_⟩
    cases value with
    | none =>
      simp only at hask
      split at hask
      · rename_i hr
        cases hask
        exact .inl ⟨rfl, hr, rfl⟩
      · cases hask
    | some e =>
      simp only at hask
      split at hask
      · cases hask
      · rename_i hr
        simp only [bind_eq_ok, pure_eq_ok] at hask
        obtain ⟨v, hv, _, ha, rfl⟩ := hask
        exact .inr ⟨e, v, rfl, hr, hv, expectAssignable_ok ha, rfl⟩

/-! ## The rules -/

/-- A piece of a program with what came out of checking it. -/
inductive Piece where
  | stmt (a : Stmt) (t : Typed.Stmt)
  | stmts (as : List Stmt) (ts : List Typed.Stmt)
  | alternative (a : Alternative) (no : Option (List Typed.Stmt))

/-- **Checking the piece passes** and changes the first state into the second. -/
inductive Checks : State → Piece → State → Prop
  | declare {s : State} {name : String} {isConstant byReference : Bool} {value : Expr} {span : Span}
      {e : Typed.Expr} {v : Variable} (hvalue : expr s.env value = .ok e)
      (hv : v = ⟨s.nextId, name, isConstant, e.type⟩)
      (hnew : s.env.scopes.inner.find? name = none) :
      Checks s (.stmt (.declare name isConstant byReference value span) (.declare v byReference e))
        (s.introduce name (.variable v))
  | struct {s : State} {name : String} {bindings : List Binding} {span : Span} {fs : List Field}
      {types : TypeTable} (hnew : s.env.scopes.inner.find? name = none)
      (hfields : fields (s.structEnv name) bindings = .ok fs)
      (hdefine : (s.env.types.declare name).define s.env.types.nextId fs = .ok types) :
      Checks s (.stmt (.struct name bindings span) (.struct s.env.types.nextId))
        (s.introduceStruct name fs)
  | function {s s₁ s₂ : State} {name : String} {params : List Binding} {result : Option TypeExpr}
      {body : Block} {span : Span} {ts : List Ty} {r : Ty} {f : Function} {vs : List Variable}
      {us : List Typed.Stmt} (hsig : signature s.env params result = .ok (ts, r))
      (hf : f = ⟨s.nextId, name, ts, r⟩) (hnew : s.env.scopes.inner.find? name = none)
      (hparams : parameters params ts ((s.introduce name (.function f)).enter (.function f)) =
        .ok vs s₁)
      (hbody : Checks s₁ (.stmts body.body us) s₂) :
      Checks s (.stmt (.function name params result body span) (.function f vs us)) s₂.leave
  | assign {s : State} {t v : Expr} {byReference : Bool} {span : Span} {place source : Typed.Expr}
      (htarget : expr s.env t = .ok place) (hplace : targetFault? place = none)
      (hvalue : expr s.env v = .ok source) (hfits : source.type.assignable place.type = true) :
      Checks s (.stmt (.assign t v byReference span) (.assign place source byReference)) s
  | increment {s : State} {t : Expr} {span : Span} {place : Typed.Expr}
      (htarget : expr s.env t = .ok place) (hplace : targetFault? place = none)
      (hint : place.type = .int) : Checks s (.stmt (.increment t span) (.increment place)) s
  | decrement {s : State} {t : Expr} {span : Span} {place : Typed.Expr}
      (htarget : expr s.env t = .ok place) (hplace : targetFault? place = none)
      (hint : place.type = .int) : Checks s (.stmt (.decrement t span) (.decrement place)) s
  | breakLoop {s : State} {span : Span} (hloop : s.env.scopes.inLoop = true) :
      Checks s (.stmt (.breakLoop span) .breakLoop) s
  | leave {s : State} {span : Span} {f : Function} (hf : s.env.scopes.function = some f)
      (hvoid : f.result = .void) : Checks s (.stmt (.giveBack none span) (.giveBack none)) s
  | giveBack {s : State} {e : Expr} {span : Span} {f : Function} {v : Typed.Expr}
      (hf : s.env.scopes.function = some f) (hvoid : f.result ≠ .void)
      (hvalue : expr s.env e = .ok v) (hfits : v.type.assignable f.result = true) :
      Checks s (.stmt (.giveBack (some e) span) (.giveBack (some v))) s
  | branch {s s₁ s' : State} {test : Expr} {body : Block} {rest : Alternative} {span : Span}
      {e : Typed.Expr} {yes : List Typed.Stmt} {no : Option (List Typed.Stmt)}
      (htest : expr s.env test = .ok e) (hbool : e.type = .bool)
      (hyes : Checks (s.enter .block) (.stmts body.body yes) s₁)
      (hno : Checks s₁.leave (.alternative rest no) s') :
      Checks s (.stmt (.branch test body rest span) (typedBranch e yes no)) s'
  | whileLoop {s s₁ : State} {test : Expr} {body : Block} {span : Span} {e : Typed.Expr}
      {us : List Typed.Stmt} (htest : expr s.env test = .ok e) (hbool : e.type = .bool)
      (hbody : Checks (s.enter .loop) (.stmts body.body us) s₁) :
      Checks s (.stmt (.whileLoop test body span) (.whileLoop e us)) s₁.leave
  | repeatLoop {s s₁ : State} {count : Expr} {body : Block} {span : Span} {e : Typed.Expr}
      {us : List Typed.Stmt} (hcount : expr s.env count = .ok e) (hint : e.type = .int)
      (hbody : Checks (s.enter .loop) (.stmts body.body us) s₁) :
      Checks s (.stmt (.repeatLoop count body span) (.repeatLoop e us)) s₁.leave
  | rangeLoop {s s₁ : State} {iterator : String} {low high : Expr} {op : RangeOp} {body : Block}
      {span : Span} {a b : Typed.Expr} {v : Variable} {us : List Typed.Stmt}
      (hlow : expr s.env low = .ok a) (hlowInt : a.type = .int)
      (hhigh : expr s.env high = .ok b) (hhighInt : b.type = .int)
      (hv : v = ⟨s.nextId, iterator, true, .int⟩)
      (hbody : Checks ((s.enter .loop).introduce iterator (.variable v)) (.stmts body.body us) s₁) :
      Checks s (.stmt (.rangeLoop iterator low op high body span) (.rangeLoop v a op b us)) s₁.leave
  | eachLoop {s s₁ : State} {iterator : String} {e : Expr} {body : Block} {span : Span}
      {c : Typed.Expr} {element : Ty} {v : Variable} {us : List Typed.Stmt}
      (hcollection : expr s.env e = .ok c) (harray : c.type = .array element)
      (hv : v = ⟨s.nextId, iterator, true, element⟩)
      (hbody : Checks ((s.enter .loop).introduce iterator (.variable v)) (.stmts body.body us) s₁) :
      Checks s (.stmt (.eachLoop iterator e body span) (.eachLoop v c us)) s₁.leave
  | perform {s : State} {e : Expr} {span : Span} {c : Typed.Expr} (he : expr s.env e = .ok c) :
      Checks s (.stmt (.perform e span) (.perform c)) s
  | nothing {s : State} : Checks s (.alternative .nothing none) s
  | otherwise {s s₁ : State} {body : Block} {us : List Typed.Stmt}
      (hbody : Checks (s.enter .block) (.stmts body.body us) s₁) :
      Checks s (.alternative (.otherwise body) (some us)) s₁.leave
  /-- A chained branch gets no scope of its own. -/
  | elseIf {s s' : State} {test : Expr} {body : Block} {rest : Alternative} {span : Span}
      {t : Typed.Stmt} (hbranch : Checks s (.stmt (.branch test body rest span) t) s') :
      Checks s (.alternative (.elseIf test body rest span) (some [t])) s'
  | nil {s : State} : Checks s (.stmts [] []) s
  | cons {s s₁ s' : State} {a : Stmt} {as : List Stmt} {t : Typed.Stmt} {ts : List Typed.Stmt}
      (hhead : Checks s (.stmt a t) s₁) (htail : Checks s₁ (.stmts as ts) s') :
      Checks s (.stmts (a :: as) (t :: ts)) s'

/-! ## The checker obeys them -/

mutual

theorem checks_of_stmt : ∀ {a : Stmt} {s s' : State} {t : Typed.Stmt}, stmt a s = .ok t s' →
    Checks s (.stmt a t) s'
  | .declare name isConstant byReference value span, s, s', t, h => by
    simp only [stmt, run_bind_ok, run_pure_ok] at h
    obtain ⟨e, _, hask, v, _, hdecl, rfl, rfl⟩ := h
    obtain ⟨he, rfl⟩ := ask_ok hask
    obtain ⟨hv, hnew, rfl⟩ := declareVariable_eq hdecl
    exact .declare he hv hnew
  | .struct name bindings span, s, s', t, h => by
    rw [stmt] at h
    obtain ⟨fs, types, rfl, hnew, hfs, hd, rfl⟩ := struct_eq h
    exact .struct hnew hfs hd
  | .function name params result (.mk body _) span, s, s', t, h => by
    simp only [stmt, run_bind_ok, run_pure_ok] at h
    obtain ⟨f, _, hfun, ⟨vs, us⟩, _, hin, rfl, rfl⟩ := h
    obtain ⟨ts, r, hsig, hf, hnew, rfl⟩ := function_eq hfun
    obtain ⟨s₂, hrun, rfl⟩ := run_inScope_ok hin
    simp only [run_bind_ok, run_pure_ok, Prod.mk.injEq] at hrun
    obtain ⟨_, s₁, hvs, _, _, hus, ⟨rfl, rfl⟩, rfl⟩ := hrun
    have hparams : f.params = ts := by rw [hf]
    exact .function hsig hf hnew (hparams ▸ hvs) (checks_of_stmts hus)
  | .assign target value byReference span, s, s', t, h => by
    simp only [stmt, run_bind_ok, run_pure_ok] at h
    obtain ⟨⟨place, source⟩, _, ha, rfl, rfl⟩ := h
    obtain ⟨ht, hp, hv, hfits, rfl⟩ := assignment_eq ha
    exact .assign ht hp hv hfits
  | .increment target span, s, s', t, h => by
    simp only [stmt, run_bind_ok, run_pure_ok] at h
    obtain ⟨place, _, hc, rfl, rfl⟩ := h
    obtain ⟨ht, hp, hi, rfl⟩ := counted_eq hc
    exact .increment ht hp hi
  | .decrement target span, s, s', t, h => by
    simp only [stmt, run_bind_ok, run_pure_ok] at h
    obtain ⟨place, _, hc, rfl, rfl⟩ := h
    obtain ⟨ht, hp, hi, rfl⟩ := counted_eq hc
    exact .decrement ht hp hi
  | .breakLoop span, s, s', t, h => by
    rw [stmt] at h
    obtain ⟨hloop, rfl, rfl⟩ := breakLoop_eq h
    exact .breakLoop hloop
  | .giveBack value span, s, s', t, h => by
    rw [stmt] at h
    obtain ⟨f, hf, rfl, ⟨rfl, hr, rfl⟩ | ⟨e, v, rfl, hr, hv, ha, rfl⟩⟩ := giveBack_eq h
    · exact .leave hf hr
    · exact .giveBack hf hr hv ha
  | .branch test (.mk body _) rest span, s, s', t, h => by
    simp only [stmt, run_bind_ok, run_pure_ok] at h
    obtain ⟨e, _, hcond, yes, _, hin, no, _, hno, rfl, rfl⟩ := h
    obtain ⟨he, hb, rfl⟩ := condition_eq hcond
    obtain ⟨s₁, hyes, rfl⟩ := run_inScope_ok hin
    exact .branch he hb (checks_of_stmts hyes) (checks_of_alternative hno)
  | .whileLoop test (.mk body _) span, s, s', t, h => by
    simp only [stmt, run_bind_ok, run_pure_ok] at h
    obtain ⟨e, _, hcond, us, _, hin, rfl, rfl⟩ := h
    obtain ⟨he, hb, rfl⟩ := condition_eq hcond
    obtain ⟨s₁, hus, rfl⟩ := run_inScope_ok hin
    exact .whileLoop he hb (checks_of_stmts hus)
  | .repeatLoop count (.mk body _) span, s, s', t, h => by
    simp only [stmt, run_bind_ok, run_pure_ok] at h
    obtain ⟨e, _, hcount, us, _, hin, rfl, rfl⟩ := h
    obtain ⟨he, hi, rfl⟩ := integer_eq hcount
    obtain ⟨s₁, hus, rfl⟩ := run_inScope_ok hin
    exact .repeatLoop he hi (checks_of_stmts hus)
  | .rangeLoop iterator low op high (.mk body _) span, s, s', t, h => by
    simp only [stmt, run_bind_ok, run_pure_ok] at h
    obtain ⟨a, _, hlow, b, _, hhigh, ⟨v, us⟩, _, hin, rfl, rfl⟩ := h
    obtain ⟨ha, hai, rfl⟩ := integer_eq hlow
    obtain ⟨hb, hbi, rfl⟩ := integer_eq hhigh
    obtain ⟨s₁, hrun, rfl⟩ := run_inScope_ok hin
    simp only [run_bind_ok, run_pure_ok, Prod.mk.injEq] at hrun
    obtain ⟨_, _, hdecl, _, _, hus, ⟨rfl, rfl⟩, rfl⟩ := hrun
    obtain ⟨hv, -, rfl⟩ := declareVariable_eq hdecl
    exact .rangeLoop ha hai hb hbi hv (checks_of_stmts hus)
  | .eachLoop iterator e (.mk body _) span, s, s', t, h => by
    simp only [stmt, run_bind_ok, run_pure_ok] at h
    obtain ⟨c, _, hc, element, _, hel, ⟨v, us⟩, _, hin, rfl, rfl⟩ := h
    obtain ⟨he, rfl⟩ := ask_ok hc
    obtain ⟨harray, rfl⟩ := ask_ok hel
    obtain ⟨s₁, hrun, rfl⟩ := run_inScope_ok hin
    simp only [run_bind_ok, run_pure_ok, Prod.mk.injEq] at hrun
    obtain ⟨_, _, hdecl, _, _, hus, ⟨rfl, rfl⟩, rfl⟩ := hrun
    obtain ⟨hv, -, rfl⟩ := declareVariable_eq hdecl
    exact .eachLoop he (expectArray_ok harray) hv (checks_of_stmts hus)
  | .perform e span, s, s', t, h => by
    simp only [stmt, run_bind_ok, run_pure_ok] at h
    obtain ⟨c, _, hask, rfl, rfl⟩ := h
    obtain ⟨he, rfl⟩ := ask_ok hask
    exact .perform he

theorem checks_of_alternative : ∀ {a : Alternative} {s s' : State} {no : Option (List Typed.Stmt)},
    alternative a s = .ok no s' → Checks s (.alternative a no) s'
  | .nothing, s, s', no, h => by
    rw [alternative, run_pure_ok] at h
    obtain ⟨rfl, rfl⟩ := h
    exact .nothing
  | .otherwise (.mk body _), s, s', no, h => by
    simp only [alternative, run_bind_ok, run_pure_ok] at h
    obtain ⟨us, _, hin, rfl, rfl⟩ := h
    obtain ⟨s₁, hus, rfl⟩ := run_inScope_ok hin
    exact .otherwise (checks_of_stmts hus)
  | .elseIf test (.mk body _) rest span, s, s', no, h => by
    simp only [alternative, run_bind_ok, run_pure_ok] at h
    obtain ⟨e, _, hcond, yes, _, hin, no, _, hno, rfl, rfl⟩ := h
    obtain ⟨he, hb, rfl⟩ := condition_eq hcond
    obtain ⟨s₁, hyes, rfl⟩ := run_inScope_ok hin
    exact .elseIf (.branch he hb (checks_of_stmts hyes) (checks_of_alternative hno))

/-- **A check of statements that passes obeys the rules.** -/
theorem checks_of_stmts : ∀ {as : List Stmt} {s s' : State} {ts : List Typed.Stmt},
    stmts as s = .ok ts s' → Checks s (.stmts as ts) s'
  | [], s, s', ts, h => by
    rw [stmts, run_pure_ok] at h
    obtain ⟨rfl, rfl⟩ := h
    exact .nil
  | a :: as, s, s', ts, h => by
    simp only [stmts, run_bind_ok, run_pure_ok] at h
    obtain ⟨t, _, ht, ts, _, hts, rfl, rfl⟩ := h
    exact .cons (checks_of_stmt ht) (checks_of_stmts hts)

end

/-- The expressions of a statement were checked in the state that the statement was checked in. -/
theorem Checks.exprs {a : Stmt} {t : Typed.Stmt} (h : Checks s (.stmt a t) s') :
    ∀ e ∈ t.exprs, ∃ b, expr s.env b = .ok e := by
  cases h with
  | declare he _ _ | increment he _ _ | decrement he _ _ | giveBack _ _ he _ | whileLoop he _ _
  | repeatLoop he _ _ | eachLoop he _ _ _ | perform he =>
    simpa [Typed.Stmt.exprs] using ⟨_, he⟩
  | assign ht _ hv _ => simpa [Typed.Stmt.exprs] using ⟨⟨_, ht⟩, _, hv⟩
  | rangeLoop hlow _ hhigh _ _ _ => simpa [Typed.Stmt.exprs] using ⟨⟨_, hlow⟩, _, hhigh⟩
  | @branch _ _ _ _ _ _ _ e yes no he _ _ _ =>
    cases no <;> simpa [typedBranch, Typed.Stmt.exprs] using ⟨_, he⟩
  | _ => exact List.forall_mem_nil _

/-- **A program that is accepted obeys the rules**, from the names of the library to its own table
of structs. -/
theorem checks_of_program {lib : Library} {b : Block} {p : Typed.Program}
    (h : program lib b = .ok p) :
    ∃ s, Checks (.initial lib) (.stmts b.body p.statements) s ∧ s.env.types = p.types := by
  unfold program at h
  split at h
  · cases h
    exact ⟨_, checks_of_stmts (by assumption), rfl⟩
  · cases h

/-! ## The rules everywhere -/

/-- Checking some statement gave this one. -/
def Checked (t : Typed.Stmt) : Prop := ∃ s a s', Checks s (.stmt a t) s'

theorem Checks.checked_of_mem {as : List Stmt} {ts : List Typed.Stmt}
    (h : Checks s (.stmts as ts) s') : ∀ t ∈ ts, Checked t := by
  induction ts generalizing s as with
  | nil => exact nofun
  | cons t ts ih =>
    cases h with
    | cons hhead htail => exact List.forall_mem_cons.mpr ⟨⟨_, _, _, hhead⟩, ih htail⟩

theorem Checks.checked_of_mem_alternative {rest : Alternative} {no : Option (List Typed.Stmt)}
    (h : Checks s (.alternative rest no) s') : ∀ ts ∈ no, ∀ t ∈ ts, Checked t := by
  cases h with
  | nothing => exact nofun
  | otherwise hbody =>
    rintro _ ⟨⟩
    exact hbody.checked_of_mem
  | elseIf hbranch =>
    rintro _ ⟨⟩
    exact List.forall_mem_singleton.mpr ⟨_, _, _, hbranch⟩

/-- The statements inside a checked statement were checked. -/
theorem Checked.inner {t : Typed.Stmt} (h : Checked t) : ∀ c ∈ t.inner, Checked c := by
  obtain ⟨s, a, s', h⟩ := h
  cases h with
  | function _ _ _ _ hbody | whileLoop _ _ hbody | repeatLoop _ _ hbody
  | rangeLoop _ _ _ _ _ hbody | eachLoop _ _ _ hbody => exact hbody.checked_of_mem
  | @branch _ _ _ _ _ _ _ _ yes no _ _ hyes hno =>
    cases no with
    | none => exact hyes.checked_of_mem
    | some no =>
      exact List.forall_mem_append.mpr
        ⟨hyes.checked_of_mem, hno.checked_of_mem_alternative no rfl⟩
  | _ => exact nofun

/-- **What checking sees to in each expression and in each statement, it sees to everywhere.** -/
theorem Checked.everywhere {P : Typed.Expr → Prop} {Q : Typed.Stmt → Prop}
    (hP : ∀ env a e, expr env a = .ok e → e.Everywhere P) (hQ : ∀ t, Checked t → Q t)
    {t : Typed.Stmt} (h : Checked t) : t.Everywhere P Q := by
  induction t using Typed.Stmt.induction with
  | step t ih =>
    refine .node (hQ t h) (fun e he => ?_) fun c hc => ih c hc (h.inner c hc)
    obtain ⟨s, a, s', ht⟩ := h
    obtain ⟨b, hb⟩ := ht.exprs e he
    exact hP _ _ _ hb

theorem parameters_types : ∀ {bs : List Binding} {ts : List Ty} {s s' : State}
    {vs : List Variable}, bs.length = ts.length → parameters bs ts s = .ok vs s' →
    vs.map (·.type) = ts
  | [], [], _, _, _, _, h => by
    obtain ⟨rfl, -⟩ := run_pure_ok.mp h
    rfl
  | [], _ :: _, _, _, _, hlen, _ | _ :: _, [], _, _, _, hlen, _ => absurd hlen (by simp)
  | b :: bs, t :: ts, _, _, vs, hlen, h => by
    simp only [parameters, run_bind_ok, run_pure_ok] at h
    obtain ⟨v, _, hv, vs, _, hvs, rfl, -⟩ := h
    obtain ⟨rfl, -⟩ := declareVariable_eq hv
    rw [List.map_cons, parameters_types (by simpa using hlen) hvs]

theorem resolveAll_length {env : Env} : ∀ {as : List TypeExpr} {ts : List Ty},
    resolveAll env as = .ok ts → as.length = ts.length
  | [], ts, h => by
    rw [resolveAll, pure_eq_ok] at h
    subst h
    rfl
  | a :: as, ts, h => by
    simp only [resolveAll, bind_eq_ok, pure_eq_ok] at h
    obtain ⟨t, -, ts, hts, rfl⟩ := h
    simp [resolveAll_length hts]

theorem signature_length {env : Env} {params : List Binding} {result : Option TypeExpr}
    {ts : List Ty} {r : Ty} (h : signature env params result = .ok (ts, r)) :
    params.length = ts.length := by
  unfold signature at h
  obtain ⟨us, hus, h⟩ := bind_eq_ok.mp h
  have hlen := resolveAll_length hus
  rw [List.length_map] at hlen
  cases result with
  | none =>
    cases h
    exact hlen
  | some t =>
    obtain ⟨_, -, h⟩ := bind_eq_ok.mp h
    cases h
    exact hlen

/-- A checked statement obeys its rule. -/
theorem Checks.ruled {a : Stmt} {t : Typed.Stmt} (h : Checks s (.stmt a t) s') : t.Ruled := by
  cases h with
  | declare _ hv _ =>
    subst hv
    rfl
  | function hsig hf _ hparams _ =>
    subst hf
    exact parameters_types (signature_length hsig) hparams
  | assign _ hplace _ hfits => exact ⟨hplace, hfits⟩
  | increment _ hplace hint | decrement _ hplace hint => exact ⟨hplace, hint⟩
  | @branch _ _ _ _ _ _ _ _ yes no _ hbool _ _ => cases no <;> exact hbool
  | whileLoop _ hbool _ => exact hbool
  | repeatLoop _ hint _ => exact hint
  | rangeLoop _ hlow _ hhigh hv _ =>
    subst hv
    exact ⟨rfl, hlow, hhigh⟩
  | eachLoop _ harray hv _ =>
    subst hv
    exact harray
  | _ => exact trivial

/-- **Checked programs obey the rules.** -/
theorem program_ruled {lib : Library} {b : Block} {p : Typed.Program}
    (h : program lib b = .ok p) : p.Everywhere Typed.Expr.Ruled Typed.Stmt.Ruled := by
  obtain ⟨s, hs, -⟩ := checks_of_program h
  intro t ht
  refine (hs.checked_of_mem t ht).everywhere (fun env _ _ => expr_ruled env) ?_
  rintro t ⟨s, a, s', h⟩
  exact h.ruled

end Check

end Quill
