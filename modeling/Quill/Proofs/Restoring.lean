import Quill.Proofs.Bindings
import Quill.Proofs.Watching

/-!
# What checking leaves behind

A statement is checked in scopes of which it changes the innermost one only, and that by no more
than the name it declares. Whatever it enters it leaves again, also where a fault deep inside ends
the check. The structs that were declared before stay what they are.

`Gains base s bs s'` says that a check comes from the state `s` to `s'` and has bound the names `bs`
by then; the structs `base` were declared before all this. `Frames view base x y Q E` says of a
checker `y` that it gains something from wherever it starts, with the property `Q` if it passes and
with `E` if it does not; and of `x`, which may be `y` under watch, that it does the same with the
state that `view` shows of its own. A struct is declared first and gets its fields later; since it
is none of `base`, that changes nothing either.

Results:
* `Frames.bind`, `Tame.inScope` and their like: the rules.
* `frames_stmt`: statements, along their recursion.
* `watch_fst`: a program under watch is checked as it is without.
* **`Check.stmt_restores`**: every statement, from every state, whether it passes or not.
-/

namespace Quill

namespace Check

open Syntax Checker

/-- What is bound in a scope. -/
abbrev Names := List (String × Entity)

/-! ## Gains -/

/-- From `s` to `s'`, the names were bound in the innermost scope, each for the first time, and no
other scope has changed; the structs `base` are still the first ones. -/
structure Gains (base : List StructDef) (s : State) (bs : Names) (s' : State) : Prop where
  scopes : s'.env.scopes = s.env.scopes.bindAll bs
  new : s.env.scopes.New (bs.map Prod.fst)
  structs : base <+: s'.env.types.structs

namespace Gains

variable {base : List StructDef} {s s₁ s' : State} {bs cs : Names}

theorem refl (h : base <+: s.env.types.structs) : Gains base s [] s := ⟨rfl, .nil _, h⟩

theorem trans (h : Gains base s bs s₁) (h' : Gains base s₁ cs s') : Gains base s (bs ++ cs) s' where
  scopes := by rw [Scopes.bindAll_append, h'.scopes, h.scopes]
  new := h.new.append (h.scopes ▸ h'.new)
  structs := h'.structs

theorem leave {kind : ScopeKind} (h : Gains base (s.enter kind) bs s') :
    Gains base s [] s'.leave where
  scopes := by
    change s'.env.scopes.pop = _
    rw [h.scopes]
    exact Scopes.pop_bindAll_push kind
  new := .nil _
  structs := h.structs

end Gains

/-! ## Rules -/

section

variable {σ α β : Type} {view : σ → State} {base : List StructDef} {Q : α → Names → Prop}
  {E : Names → Prop}

/-- What a run that started in `s` has gained: with `Q` if it passes, with `E` if it does not. -/
def Leaves (base : List StructDef) (s : State) (Q : α → Names → Prop) (E : Names → Prop) :
    EStateM.Result Diagnostic State α → Prop
  | .ok a s' => ∃ bs, Q a bs ∧ Gains base s bs s'
  | .error _ s' => ∃ bs, E bs ∧ Gains base s bs s'

theorem Leaves.imp {s : State} {r : EStateM.Result Diagnostic State α} {Q' : α → Names → Prop}
    {E' : Names → Prop} (h : Leaves base s Q E r) (hQ : ∀ a bs, Q a bs → Q' a bs)
    (hE : ∀ bs, E bs → E' bs) : Leaves base s Q' E' r := by
  cases r with
  | ok a s' =>
    obtain ⟨bs, hbs, hgains⟩ := h
    exact ⟨bs, hQ a bs hbs, hgains⟩
  | error d s' =>
    obtain ⟨bs, hbs, hgains⟩ := h
    exact ⟨bs, hE bs hbs, hgains⟩

/-- What is gained behind something that has been gained already. -/
theorem Leaves.trans {s s₁ : State} {bs : Names} {r : EStateM.Result Diagnostic State α}
    (hbs : Gains base s bs s₁)
    (h : Leaves base s₁ (fun a cs => Q a (bs ++ cs)) (fun cs => E (bs ++ cs)) r) :
    Leaves base s Q E r := by
  cases r with
  | ok a s' =>
    obtain ⟨cs, hQ, hcs⟩ := h
    exact ⟨bs ++ cs, hQ, hbs.trans hcs⟩
  | error d s' =>
    obtain ⟨cs, hE, hcs⟩ := h
    exact ⟨bs ++ cs, hE, hbs.trans hcs⟩

/-- A result with what `view` shows of its state. -/
def seen (view : σ → State) : EStateM.Result Diagnostic σ α → EStateM.Result Diagnostic State α
  | .ok a w => .ok a (view w)
  | .error d w => .error d (view w)

/-- What the checker `y` gains, wherever it starts; and `x` does the same. -/
def Frames (view : σ → State) (base : List StructDef) (x : EStateM Diagnostic σ α)
    (y : Checker α) (Q : α → Names → Prop) (E : Names → Prop) : Prop :=
  ∀ w, base <+: (view w).env.types.structs →
    y (view w) = seen view (x w) ∧ Leaves base (view w) Q E (y (view w))

namespace Frames

variable {x : EStateM Diagnostic σ α} {y : Checker α} {f : α → EStateM Diagnostic σ β}
  {g : α → Checker β} {P : β → Names → Prop}

theorem pure {a : α} (h : Q a []) : Frames view base (Pure.pure a) (Pure.pure a) Q E :=
  fun _ hbase => ⟨rfl, [], h, .refl hbase⟩

/-- One checker behind the other gains what both do. -/
theorem bind (hx : Frames view base x y Q E)
    (hf : ∀ a bs, Q a bs →
      Frames view base (f a) (g a) (fun b cs => P b (bs ++ cs)) fun cs => E (bs ++ cs)) :
    Frames view base (x >>= f) (y >>= g) P E := by
  intro w hbase
  obtain ⟨hseen, hfirst⟩ := hx w hbase
  change EStateM.bind y g (view w) = seen view (EStateM.bind x f w) ∧
    Leaves base (view w) P E (EStateM.bind y g (view w))
  unfold EStateM.bind
  rw [hseen] at hfirst ⊢
  generalize x w = r at hfirst
  cases r with
  | error d w₁ => exact ⟨rfl, hfirst⟩
  | ok a w₁ =>
    obtain ⟨bs, hQ, hbs⟩ := hfirst
    obtain ⟨hseen', hnext⟩ := hf a bs hQ w₁ hbs.structs
    exact ⟨hseen', hnext.trans hbs⟩

theorem imp {Q' : α → Names → Prop} {E' : Names → Prop} (h : Frames view base x y Q E)
    (hQ : ∀ a bs, Q a bs → Q' a bs) (hE : ∀ bs, E bs → E' bs) : Frames view base x y Q' E' :=
  fun w hbase => ⟨(h w hbase).1, (h w hbase).2.imp hQ hE⟩

/-- A checker beside itself. -/
theorem alone (h : ∀ s, base <+: s.env.types.structs → Leaves base s Q E (y s)) :
    Frames id base y y Q E := by
  refine fun s hbase => ⟨?_, h s hbase⟩
  change y s = seen id (y s)
  cases y s <;> rfl

theorem get {f : State → Checker α}
    (h : ∀ s, base <+: s.env.types.structs → Leaves base s Q E (f s s)) :
    Frames id base (MonadState.get >>= f) (MonadState.get >>= f) Q E := alone h

/-- Under watch a checker is a step, whatever it makes. -/
theorem step (h : Frames id base y y Q E) (makes : α → List Product) :
    Frames Watch.state base (Watched.step y makes) y Q E := by
  refine fun w hbase => ⟨?_, (h w.state hbase).2⟩
  unfold Watched.step
  cases y w.state <;> rfl

theorem make {x : Watched β} {y : Checker β} {xs : List Product}
    (h : Frames Watch.state base x y P E) :
    Frames Watch.state base (Watched.make xs >>= fun _ => x) y P E :=
  fun w => h (w.reach w.state xs)

end Frames

/-- The checker gains nothing. -/
abbrev Quiet (view : σ → State) (base : List StructDef) (x : EStateM Diagnostic σ α)
    (y : Checker α) : Prop :=
  Frames view base x y (fun _ bs => bs = []) (· = [])

/-- The checker may gain anything. -/
abbrev Tame (view : σ → State) (base : List StructDef) (x : EStateM Diagnostic σ α)
    (y : Checker α) : Prop :=
  Frames view base x y (fun _ _ => True) fun _ => True

section

variable {x : EStateM Diagnostic σ α} {y : Checker α} {f : α → EStateM Diagnostic σ β}
  {g : α → Checker β} {P : β → Names → Prop}

/-- Behind a checker that gains nothing unless it passes. -/
theorem Frames.bindClean (hx : Frames view base x y Q (· = []))
    (hf : ∀ a bs, Q a bs →
      Frames view base (f a) (g a) (fun b cs => P b (bs ++ cs)) fun cs => E (bs ++ cs))
    (hE : E []) : Frames view base (x >>= f) (y >>= g) P E :=
  (hx.imp (fun _ _ => id) fun _ hbs => hbs ▸ hE).bind hf

theorem Quiet.bind (hx : Quiet view base x y) (hf : ∀ a, Frames view base (f a) (g a) P E)
    (hE : E []) : Frames view base (x >>= f) (y >>= g) P E := by
  refine hx.bindClean (fun a bs hbs => ?_) hE
  subst hbs
  exact hf a

theorem Quiet.step (h : Quiet id base y y) (makes : α → List Product) :
    Quiet Watch.state base (Watched.step y makes) y := Frames.step h makes

theorem Tame.bind (hx : Tame view base x y) (hf : ∀ a, Tame view base (f a) (g a)) :
    Tame view base (x >>= f) (y >>= g) :=
  Frames.bind hx fun a _ _ => hf a

theorem Frames.tame (h : Frames view base x y Q E) : Tame view base x y :=
  h.imp (fun _ _ _ => trivial) fun _ _ => trivial

end

/-- Whatever is gained in a scope is gone when it is left. -/
theorem Tame.inScope {kind : ScopeKind} {x : Watched α} {y : Checker α}
    (h : Tame Watch.state base x y) :
    Quiet Watch.state base (Watched.inScope kind x) (Checker.inScope kind y) := by
  intro w hbase
  obtain ⟨hseen, hbody⟩ := h (w.reach (w.state.enter kind) []) hbase
  have hinside : y (mapScopes (·.push kind) w.state)
      = seen Watch.state (x (w.reach (w.state.enter kind) [])) := hseen
  rw [hseen] at hbody
  unfold Watched.inScope Checker.inScope
  rw [hinside]
  generalize x (w.reach (w.state.enter kind) []) = r at hbody
  cases r with
  | ok a w' | error d w' =>
    obtain ⟨bs, -, hbs⟩ := hbody
    exact ⟨rfl, [], rfl, hbs.leave⟩

/-! ## Steps -/

variable {name : String} {p : Position}

theorem quiet_ask (f : Env → Except Diagnostic α) : Quiet id base (ask f) (ask f) := by
  refine .get fun s hbase => ?_
  cases f s.env <;> exact ⟨[], rfl, .refl hbase⟩

theorem quiet_freshId : Quiet id base freshId freshId :=
  .alone fun _ hbase => ⟨[], rfl, rfl, .nil _, hbase⟩

theorem frames_declare (x : Entity) :
    Frames id base (Checker.declare name x p) (Checker.declare name x p)
      (fun _ bs => bs = [(name, x)]) (· = []) := by
  refine .get fun s hbase => ?_
  unfold Scopes.declare
  cases hfind : s.env.scopes.inner.find? name with
  | none =>
    exact ⟨_, rfl, rfl, ⟨List.nodup_singleton _, List.forall_mem_singleton.mpr hfind⟩, hbase⟩
  | some y => exact ⟨[], rfl, .refl hbase⟩

theorem frames_declareVariable (readOnly : Bool) (t : Ty) :
    Frames id base (declareVariable name readOnly t p) (declareVariable name readOnly t p)
      (fun v bs => bs = [(name, .variable v)]) (· = []) := by
  refine quiet_freshId.bind (fun id => ?_) rfl
  refine Frames.bind (frames_declare _) fun _ bs hbs => .pure ?_
  rw [hbs, List.append_nil]

theorem frames_function (params : List Binding) (result : Option TypeExpr) :
    Frames id base (function name params result p) (function name params result p)
      (fun f bs => bs = [(name, .function f)]) (· = []) := by
  refine (quiet_ask _).bind (fun r => quiet_freshId.bind (fun id => ?_) rfl) rfl
  refine Frames.bind (frames_declare _) fun _ bs hbs => .pure ?_
  rw [hbs, List.append_nil]

theorem tame_parameters : ∀ (bs : List Binding) (ts : List Ty),
    Tame Watch.state base (Watched.parameters bs ts) (parameters bs ts)
  | b :: bs, t :: ts => by
    rw [Watched.parameters, parameters]
    exact ((frames_declareVariable _ _).step _).tame.bind fun v =>
      (tame_parameters bs ts).bind fun vs => .pure trivial
  | [], _ | _ :: _, [] => .pure trivial

/-! A struct is numbered behind those of `base`, so that giving it fields leaves them alone. -/

theorem frames_nextStruct : Frames id base nextStruct nextStruct
    (fun id bs => bs = [] ∧ base.length ≤ id.index) (· = []) :=
  .alone fun _ hbase => ⟨[], ⟨rfl, hbase.length_le⟩, .refl hbase⟩

theorem quiet_declareStruct : Quiet id base (declareStruct name) (declareStruct name) :=
  .alone fun _ hbase => ⟨[], rfl, rfl, .nil _, hbase.trans (List.prefix_append _ _)⟩

theorem prefix_modify {β : Type} {xs ys : List β} {i : Nat} {f : β → β} (h : xs <+: ys)
    (hi : xs.length ≤ i) : xs <+: ys.modify i f := by
  rw [List.prefix_iff_getElem?] at h ⊢
  intro j hj
  rw [List.getElem?_modify_ne _ _ (by omega), h j hj]

theorem quiet_defineStruct {number : StructId} (fs : List Field)
    (hnumber : base.length ≤ number.index) :
    Quiet id base (defineStruct number fs p) (defineStruct number fs p) := by
  refine .get fun s hbase => ?_
  cases hdefine : s.env.types.define number fs with
  | error cause => exact ⟨[], rfl, .refl hbase⟩
  | ok types =>
    refine ⟨[], rfl, rfl, .nil _, ?_⟩
    unfold TypeTable.define at hdefine
    split at hdefine
    · cases hdefine
    · split_ifs at hdefine
      cases hdefine
      exact prefix_modify hbase hnumber

end

end Check

/-! ## Statements -/

/-- The name that a statement declares in the scope where it stands. -/
def Syntax.Stmt.declaredName? : Stmt → Option String
  | .declare name _ _ _ _ | .struct name _ _ | .function name _ _ _ _ => some name
  | _ => none

namespace Check

open Syntax Checker

variable {base : List StructDef}

/-- The names that are bound when checking `a` passes with `t`: the one that `a` declares, for what
`t` declares; or none. -/
inductive Declared (a : Stmt) (t : Typed.Stmt) : Names → Prop
  | name {name : String} {x : Entity} (ha : a.declaredName? = some name)
      (ht : t.declared? = some x) : Declared a t [(name, x)]
  | nothing (ha : a.declaredName? = none) : Declared a t []

/-- The names that may be bound when it does not pass: the one that `a` declares, or none. -/
def MayDeclare (a : Stmt) (bs : Names) : Prop := (bs.map Prod.fst).Sublist a.declaredName?.toList

theorem MayDeclare.nil (a : Stmt) : MayDeclare a [] := List.nil_sublist _

theorem MayDeclare.single {a : Stmt} {name : String} (ha : a.declaredName? = some name)
    (x : Entity) : MayDeclare a [(name, x)] := by
  rw [MayDeclare, ha]
  exact List.Sublist.refl _

/-- The iterator of a loop and its body. -/
theorem tame_iteration {name : String} {t : Ty} {p : Position} {x : Watched (List Typed.Stmt)}
    {y : Checker (List Typed.Stmt)} (h : Tame Watch.state base x y) :
    Tame Watch.state base
      (do
        let v ← Watched.variable name true t p
        return (v, ← x))
      (do
        let v ← declareVariable name true t p
        return (v, ← y)) :=
  ((frames_declareVariable _ _).step _).tame.bind fun _ => h.bind fun _ => .pure trivial

/-- What checking a statement leaves, with a watch and without. -/
abbrev FramesStmt (base : List StructDef) (a : Stmt) (x : Watched Typed.Stmt)
    (y : Checker Typed.Stmt) : Prop :=
  Frames Watch.state base x y (Declared a) (MayDeclare a)

theorem FramesStmt.of_quiet {a : Stmt} {x : Watched Typed.Stmt} {y : Checker Typed.Stmt}
    (ha : a.declaredName? = none) (h : Quiet Watch.state base x y) : FramesStmt base a x y :=
  h.imp (fun _ _ hbs => hbs ▸ .nothing ha) fun _ hbs => hbs ▸ .nil a

theorem frames_struct (name : String) (bindings : List Binding) (span : Span) :
    FramesStmt base (.struct name bindings span) (Watched.struct name bindings span.start)
      (struct name bindings span.start) := by
  rw [struct_eq_steps]
  refine (frames_nextStruct.step _).bindClean ?_ (.nil _)
  rintro id _ ⟨rfl, hid⟩
  refine (quiet_declareStruct.step _).bind (fun _ => ?_) (.nil _)
  refine ((frames_declare _).step _).bindClean ?_ (.nil _)
  rintro _ _ rfl
  refine ((quiet_ask _).step _).bind (fun fs => ?_) (.single rfl _)
  refine ((quiet_defineStruct fs hid).step _).bind (fun _ => .pure ?_) (.single rfl _)
  exact .name rfl rfl

mutual

theorem frames_stmt : ∀ a : Stmt, FramesStmt base a (Watched.stmt a) (stmt a)
  | .declare name isConstant byReference value span => by
    rw [Watched.stmt, stmt]
    refine ((quiet_ask _).step _).bind (fun e => ?_) (.nil _)
    refine ((frames_declareVariable _ _).step _).bindClean ?_ (.nil _)
    rintro v _ rfl
    exact .pure (.name rfl rfl)
  | .struct name bindings span => by
    rw [Watched.stmt, stmt]
    exact frames_struct name bindings span
  | .function name params result (.mk body _) span => by
    rw [Watched.stmt, stmt]
    refine ((frames_function _ _).step _).bindClean ?_ (.nil _)
    rintro f _ rfl
    refine (Tame.inScope ?_).bind (fun r => .pure (.name rfl rfl)) (.single rfl _)
    exact (tame_parameters params f.params).bind fun vs => (tame_stmts body).bind fun ts =>
      .pure trivial
  | .assign t v byReference span => by
    rw [Watched.stmt, stmt]
    exact .of_quiet rfl (((quiet_ask _).step _).bind (fun r => .pure rfl) rfl)
  | .increment t span | .decrement t span => by
    rw [Watched.stmt, stmt]
    exact .of_quiet rfl (((quiet_ask _).step _).bind (fun r => .pure rfl) rfl)
  | .breakLoop span | .giveBack value span => by
    rw [Watched.stmt, stmt]
    exact .of_quiet rfl ((quiet_ask _).step _)
  | .branch test (.mk body _) rest span => by
    rw [Watched.stmt, stmt]
    refine .of_quiet rfl (((quiet_ask _).step _).bind (fun e => ?_) rfl)
    exact (tame_stmts body).inScope.bind (fun yes => (quiet_alternative rest).bind
      (fun no => .pure rfl) rfl) rfl
  | .whileLoop test (.mk body _) span | .repeatLoop count (.mk body _) span => by
    rw [Watched.stmt, stmt]
    refine .of_quiet rfl (((quiet_ask _).step _).bind (fun e => ?_) rfl)
    exact (tame_stmts body).inScope.bind (fun ts => .pure rfl) rfl
  | .rangeLoop iterator low op high (.mk body _) span => by
    rw [Watched.stmt, stmt]
    refine .of_quiet rfl (((quiet_ask _).step _).bind (fun a => ?_) rfl)
    refine ((quiet_ask _).step _).bind (fun b => ?_) rfl
    exact (tame_iteration (tame_stmts body)).inScope.bind (fun r => .pure rfl) rfl
  | .eachLoop iterator e (.mk body _) span => by
    rw [Watched.stmt, stmt]
    refine .of_quiet rfl (((quiet_ask _).step _).bind (fun a => ?_) rfl)
    refine ((quiet_ask _).step _).bind (fun b => ?_) rfl
    exact (tame_iteration (tame_stmts body)).inScope.bind (fun r => .pure rfl) rfl
  | .perform e span => by
    rw [Watched.stmt, stmt]
    exact .of_quiet rfl (((quiet_ask _).step _).bind (fun r => .pure rfl) rfl)
termination_by structural a => a

theorem quiet_alternative : ∀ rest : Alternative,
    Quiet Watch.state base (Watched.alternative rest) (alternative rest)
  | .nothing => by
    rw [Watched.alternative, alternative]
    exact .pure rfl
  | .otherwise (.mk body _) => by
    rw [Watched.alternative, alternative]
    exact (tame_stmts body).inScope.bind (fun ts => .pure rfl) rfl
  | .elseIf test (.mk body _) rest span => by
    rw [Watched.alternative, alternative]
    refine ((quiet_ask _).step _).bind (fun e => ?_) rfl
    exact (tame_stmts body).inScope.bind (fun yes => (quiet_alternative rest).bind
      (fun no => .make (.pure rfl)) rfl) rfl
termination_by structural rest => rest

theorem tame_stmts : ∀ as : List Stmt, Tame Watch.state base (Watched.stmts as) (stmts as)
  | [] => by
    rw [Watched.stmts, stmts]
    exact .pure trivial
  | a :: as => by
    rw [Watched.stmts, stmts]
    exact (frames_stmt a).tame.bind fun t => .make ((tame_stmts as).bind fun ts => .pure trivial)
termination_by structural as => as

end

/-- Watching changes nothing. -/
theorem watch_fst (lib : Library) (b : Block) : (watch lib b).1 = program lib b := by
  have htame : Tame Watch.state [] (Watched.stmts b.body) (stmts b.body) := tame_stmts b.body
  have hrun : stmts b.body (.initial lib) = seen Watch.state (Watched.stmts b.body (.start lib)) :=
    (htame (.start lib) List.nil_prefix).1
  unfold watch program
  rw [hrun]
  cases Watched.stmts b.body (.start lib) <;> rfl

/-! ## What is restored -/

/-- From `s` to `s'`, all scopes are what they were, but that the names have been bound in the
innermost one, each for the first time; and no struct has changed. -/
structure Restored (s : State) (bs : Names) (s' : State) : Prop where
  depth : s'.env.scopes.depth = s.env.scopes.depth
  inLoop : s'.env.scopes.inLoop = s.env.scopes.inLoop
  function : s'.env.scopes.function = s.env.scopes.function
  outer : s'.env.scopes.outer = s.env.scopes.outer
  names : s'.env.scopes.inner.names = bs.reverse ++ s.env.scopes.inner.names
  new : ∀ b ∈ bs, s.env.scopes.inner.find? b.1 = none
  kept : ∀ name x, s.env.scopes.inner.find? name = some x →
    s'.env.scopes.inner.find? name = some x
  structs : s.env.types.structs <+: s'.env.types.structs

theorem Gains.restored {s s' : State} {bs : Names} (h : Gains s.env.types.structs s bs s') :
    Restored s bs s' := by
  have hscopes := h.scopes.trans Scopes.bindAll_eq
  have hnames : s'.env.scopes.inner.names = bs.reverse ++ s.env.scopes.inner.names := by
    rw [hscopes]
  have hnew : ∀ b ∈ bs, s.env.scopes.inner.find? b.1 = none :=
    fun b hb => h.new.2 b.1 (List.mem_map_of_mem hb)
  refine ⟨?_, ?_, ?_, ?_, hnames, hnew, fun name x hx => ?_, h.structs⟩
  · rw [hscopes]
    rfl
  · rw [hscopes]
    rfl
  · rw [hscopes]
    rfl
  · rw [hscopes]
  -- a name that was bound before is none of the new ones
  · have hold : bs.reverse.lookup name = none := by
      rw [Scopes.lookup_eq_none_iff_not_mem, List.map_reverse, List.mem_reverse]
      intro hmem
      rw [h.new.2 name hmem] at hx
      cases hx
    rw [Scope.find?, hnames, List.lookup_append, hold]
    exact hx

/-- **Scopes are restored on every way out of a statement.** From whatever state it is checked, and
whether it passes or not, the open scopes are afterwards what they were, but for the name that the
statement itself declares in the innermost one: it is bound there if the statement passes, and may
be if it does not. Of the structs, the earlier ones are as they were. -/
theorem stmt_restores (a : Stmt) (s : State) :
    (∀ t s', stmt a s = .ok t s' → ∃ bs, Restored s bs s' ∧ Declared a t bs) ∧
      ∀ d s', stmt a s = .error d s' → ∃ bs, Restored s bs s' ∧ MayDeclare a bs := by
  have hframes : Leaves s.env.types.structs s (Declared a) (MayDeclare a) (stmt a s) :=
    (frames_stmt a ⟨s, [], []⟩ List.prefix_rfl).2
  refine ⟨fun t s' hrun => ?_, fun d s' hrun => ?_⟩ <;> rw [hrun] at hframes
  · obtain ⟨bs, hbs, hgains⟩ := hframes
    exact ⟨bs, hgains.restored, hbs⟩
  · obtain ⟨bs, hbs, hgains⟩ := hframes
    exact ⟨bs, hgains.restored, hbs⟩

namespace Sample

/-- `fn f() { struct P {} while true { let y = 1; return y; } }`, which gives back a value although
it promises none. -/
def unpromised : Stmt :=
  let s : Span := default
  .function "f" [] none
    (.mk [
      .struct "P" [] s,
      .whileLoop (.bool true s)
        (.mk [.declare "y" false false (.int 1 s) s, .giveBack (some (.symbol "y" s)) s] s) s] s) s

/-- Inside a loop, before `unpromised` is checked. -/
def inLoop : State := (State.initial .empty).enter .loop

/-- The state that the fault in `unpromised` leaves: `f` is known, and `P` is in the table. -/
def afterFault : State :=
  ⟨⟨inLoop.env.scopes.define "f" (.function ⟨0, "f", [], .void⟩), ⟨[⟨"P", []⟩]⟩⟩, 2⟩

end Sample

/-- The fault is two scopes further in than the declaration. -/
theorem stmt_restores_unpromised :
    stmt Sample.unpromised Sample.inLoop
        = .error ⟨.badReturn "cannot return a value from this function", default⟩
          Sample.afterFault ∧
      ∃ bs, Restored Sample.inLoop bs Sample.afterFault ∧ MayDeclare Sample.unpromised bs := by
  have hrun : stmt Sample.unpromised Sample.inLoop
      = .error ⟨.badReturn "cannot return a value from this function", default⟩
        Sample.afterFault := by cbv
  exact ⟨hrun, (stmt_restores _ _).2 _ _ hrun⟩

end Check

end Quill
