import Quill.Proofs.Restoring
import Quill.Proofs.Slots
import Quill.Proofs.WellFormed

/-!
# Types at every moment of a check

At every moment of a check all types are well formed in the table of structs as it is then: those of
the names in scope and of the fields of structs, and those in whatever has been made so far, even if
a fault ends the check before the program is finished.

`Maintains inv table n x Q` is the judgement that carries this along: from a state with the
invariant and at least `n` structs, `x` comes to a state with the invariant and no fewer structs,
whether it passes or not. What comes out when it passes has the property `Q` in the new table, and
the fault when it does not describes well-formed types only. The number `n` remembers the table in
which what is at hand has been found well formed; tables only grow, so it stays so.

Results:
* `keeps_stmts`: the watched checker keeps all types well formed.
* **`Check.watch_wellFormed`**: every moment, every fault, and the program that comes out.
-/

namespace Quill.Check

open Syntax Checker

/-! ## What is well formed -/

/-- All types in what has been made are well formed. -/
def Product.WellFormed (n : Nat) : Product → Prop
  | .expr e => e.WellFormed n
  | .entity x => x.ty.WellFormed n
  | .stmt t => t.WellFormed n

theorem Product.WellFormed.mono {n m : Nat} (hnm : n ≤ m) {x : Product} (h : x.WellFormed n) :
    x.WellFormed m := by
  cases x with
  | expr e => exact Typed.Expr.WellFormed.mono hnm h
  | entity x => exact Ty.WellFormed.mono hnm h
  | stmt t => exact Typed.Stmt.WellFormed.mono hnm h

/-- All types at the moment are well formed: those that are known, those in what has been made, and
those in what is being made, since any formed expression or annotation that is looked at now has
well-formed types. -/
structure Moment.WellFormed (m : Moment) : Prop where
  env : m.env.WellFormed
  made : ∀ x ∈ m.made, x.WellFormed m.env.types.size
  nodes : ∀ a e, a.Formed → expr m.env a = .ok e → e.WellFormed m.env.types.size
  types : ∀ a t, a.Formed → resolve m.env a = .ok t → t.WellFormed m.env.types.size

theorem Moment.WellFormed.of_env {m : Moment} (henv : m.env.WellFormed)
    (hmade : ∀ x ∈ m.made, x.WellFormed m.env.types.size) : m.WellFormed where
  env := henv
  made := hmade
  nodes _ _ ha he := (expr_sound henv ha).value he
  types _ _ ha ht := (resolve_sound henv ha).value ht

/-- All moments up to the present one are well formed. -/
structure Watch.WellFormed (w : Watch) : Prop where
  env : w.state.env.WellFormed
  made : ∀ x ∈ w.made, x.WellFormed w.state.env.types.size
  moments : ∀ m ∈ w.moments, m.WellFormed
  present : ∃ m ∈ w.moments, m.env = w.state.env

theorem Watch.WellFormed.reach {w : Watch} (h : w.WellFormed) {s : State} {xs : List Product}
    (hs : s.env.WellFormed) (hsize : w.state.env.types.size ≤ s.env.types.size)
    (hxs : ∀ x ∈ xs, x.WellFormed s.env.types.size) : (w.reach s xs).WellFormed := by
  have hmade : ∀ x ∈ w.made ++ xs, x.WellFormed s.env.types.size :=
    List.forall_mem_append.mpr ⟨fun x hx => (h.made x hx).mono hsize, hxs⟩
  have hnow : Moment.WellFormed ⟨s.env, w.made ++ xs⟩ := .of_env hs hmade
  refine ⟨hs, hmade, List.forall_mem_append.mpr ⟨h.moments, ?_⟩, ?_⟩
  · exact List.forall_mem_singleton.mpr hnow
  · exact ⟨_, List.mem_append_right _ (List.mem_singleton_self _), rfl⟩

theorem Watch.WellFormed.start {lib : Library} (hlib : lib.WellFormed) :
    (Watch.start lib).WellFormed := by
  have henv := Env.WellFormed.initial hlib
  have hfirst : Moment.WellFormed ⟨(State.initial lib).env, []⟩ :=
    .of_env henv (List.forall_mem_nil _)
  exact ⟨henv, List.forall_mem_nil _, List.forall_mem_singleton.mpr hfirst,
    _, List.mem_singleton_self _, rfl⟩

namespace Env.WellFormed

variable {env : Env} (h : env.WellFormed)

include h

theorem define (name : String) {x : Entity} (hx : x.ty.WellFormed env.types.size) :
    Env.WellFormed ⟨env.scopes.define name x, env.types⟩ where
  entities y hy := by
    rcases Scopes.mem_entities_define.mp hy with rfl | hy
    · exact hx
    · exact h.entities y hy
  functions := by
    obtain ⟨hinner, houter⟩ := List.forall_mem_cons.mp h.functions
    exact List.forall_mem_cons.mpr ⟨hinner, houter⟩
  types := h.types

theorem push {kind : ScopeKind}
    (hkind : ∀ f, kind = .function f → f.type.WellFormed env.types.size) :
    Env.WellFormed ⟨env.scopes.push kind, env.types⟩ where
  entities x hx := by
    rw [Scopes.entities_push] at hx
    exact h.entities x hx
  functions := by
    refine List.forall_mem_cons.mpr ⟨fun f hf => ?_, h.functions⟩
    cases kind with
    | block | loop => exact h.functions _ List.mem_cons_self f hf
    | function g =>
      cases hf
      exact hkind f rfl
  types := h.types

theorem pop : Env.WellFormed ⟨env.scopes.pop, env.types⟩ where
  entities x hx := h.entities x (Scopes.entities_pop_subset hx)
  functions := by
    obtain ⟨⟨inner, outer⟩, types⟩ := env
    cases outer with
    | nil => exact h.functions
    | cons t ts => exact (List.forall_mem_cons.mp h.functions).2
  types := h.types

/-- A struct that is declared has no fields yet. -/
theorem declareStruct (name : String) : Env.WellFormed ⟨env.scopes, env.types.declare name⟩ := by
  have hsize : env.types.size ≤ (env.types.declare name).size :=
    TypeTable.size_declare env.types name ▸ Nat.le_succ _
  refine ⟨fun x hx => (h.entities x hx).mono hsize,
    fun scope hscope f hf => (h.functions scope hscope f hf).mono hsize, ?_⟩
  refine List.forall_mem_append.mpr ⟨fun d hd f hf => (h.types d hd f hf).mono hsize, ?_⟩
  exact List.forall_mem_singleton.mpr (List.forall_mem_nil _)

theorem defineStruct {id : StructId} {fs : List Field} {types : TypeTable}
    (hfs : ∀ f ∈ fs, f.type.WellFormed env.types.size)
    (hdefine : env.types.define id fs = .ok types) :
    types.size = env.types.size ∧ Env.WellFormed ⟨env.scopes, types⟩ := by
  unfold TypeTable.define at hdefine
  split at hdefine
  · cases hdefine
  · split_ifs at hdefine
    cases hdefine
    have hsize := List.length_modify (fun d : StructDef => { d with fields := fs })
      env.types.structs id.index
    refine ⟨hsize, ?_, ?_, ?_⟩
    · intro x hx
      exact (h.entities x hx).mono hsize.ge
    · intro scope hscope f hf
      exact (h.functions scope hscope f hf).mono hsize.ge
    · intro d hd f hf
      obtain ⟨i, hi, rfl⟩ := List.mem_iff_getElem.mp hd
      refine Ty.WellFormed.mono hsize.ge ?_
      rw [List.getElem_modify] at hf
      split_ifs at hf
      · exact hfs f hf
      · exact h.types _ (List.getElem_mem _) f hf

end Env.WellFormed

/-! ## The judgement -/

section

variable {σ α β : Type} (inv : σ → Prop) (table : σ → TypeTable)

/-- The result has come to a state with the invariant and at least `k` structs. It is a value with
the property in the table there, or a fault in which only well-formed types are described. -/
def Outcome (k : Nat) (Q : α → Nat → Prop) : EStateM.Result Diagnostic σ α → Prop
  | .ok a s => inv s ∧ k ≤ (table s).size ∧ Q a (table s).size
  | .error d s => inv s ∧ k ≤ (table s).size ∧ d.cause.DescribedBy (table s)

/-- From every state with the invariant and at least `n` structs, the invariant is kept and no
struct is lost. -/
def Maintains (n : Nat) (x : EStateM Diagnostic σ α) (Q : α → Nat → Prop) : Prop :=
  ∀ s, inv s → n ≤ (table s).size → Outcome inv table (table s).size Q (x s)

variable {inv : σ → Prop} {table : σ → TypeTable} {n : Nat} {x : EStateM Diagnostic σ α}
  {f : α → EStateM Diagnostic σ β} {P Q : α → Nat → Prop} {R : β → Nat → Prop}

theorem Outcome.mono {k l : Nat} {r : EStateM.Result Diagnostic σ α} (hkl : k ≤ l)
    (h : Outcome inv table l Q r) : Outcome inv table k Q r := by
  cases r with
  | ok a s => exact ⟨h.1, hkl.trans h.2.1, h.2.2⟩
  | error d s => exact ⟨h.1, hkl.trans h.2.1, h.2.2⟩

theorem Maintains.pure {a : α} (h : ∀ m, n ≤ m → Q a m) :
    Maintains inv table n (Pure.pure a) Q := fun _ hs hn => ⟨hs, le_rfl, h _ hn⟩

/-- Looking at the state changes nothing. -/
theorem Maintains.get {g : σ → EStateM Diagnostic σ α}
    (h : ∀ s, inv s → n ≤ (table s).size → Outcome inv table (table s).size Q (g s s)) :
    Maintains inv table n (MonadState.get >>= g) Q := h

theorem Maintains.bind (hx : Maintains inv table n x P)
    (hf : ∀ a m, n ≤ m → P a m → Maintains inv table m (f a) R) :
    Maintains inv table n (x >>= f) R := by
  intro s hs hn
  have hfirst := hx s hs hn
  change Outcome inv table _ R (EStateM.bind x f s)
  unfold EStateM.bind
  cases hrun : x s with
  | ok a s' =>
    rw [hrun] at hfirst
    obtain ⟨hs', hsize, hP⟩ := hfirst
    exact (hf a _ (hn.trans hsize) hP s' hs' le_rfl).mono hsize
  | error d s' =>
    rw [hrun] at hfirst
    exact hfirst

end

section

variable {α : Type} {n : Nat} {Q : α → Nat → Prop} {name : String} {p : Position}

/-- The checker keeps the environment well formed. -/
abbrev Keeps (n : Nat) (x : Checker α) (Q : α → Nat → Prop) : Prop :=
  Maintains (fun s : State => s.env.WellFormed) (fun s => s.env.types) n x Q

/-- The watched checker keeps all moments well formed. -/
abbrev Watched.Keeps (n : Nat) (x : Watched α) (Q : α → Nat → Prop) : Prop :=
  Maintains Watch.WellFormed (fun w => w.state.env.types) n x Q

/-! ## Steps of the checker -/

theorem keeps_ask {f : Env → Except Diagnostic α}
    (h : ∀ env, env.WellFormed → n ≤ env.types.size → Sound env (f env) (Q · env.types.size)) :
    Keeps n (ask f) Q := by
  refine .get fun s hs hn => ?_
  have hsound := h s.env hs hn
  cases hf : f s.env with
  | ok a =>
    rw [hf] at hsound
    exact ⟨hs, le_rfl, hsound⟩
  | error d =>
    rw [hf] at hsound
    exact ⟨hs, le_rfl, hsound⟩

theorem keeps_declare (name : String) (p : Position) {x : Entity} (hx : x.ty.WellFormed n) :
    Keeps n (Checker.declare name x p) fun _ m => x.ty.WellFormed m := by
  refine .get fun s hs hn => ?_
  unfold Scopes.declare
  cases s.env.scopes.inner.find? name with
  | none => exact ⟨hs.define name (hx.mono hn), le_rfl, hx.mono hn⟩
  | some y => exact ⟨hs, le_rfl, trivial⟩

theorem keeps_freshId : Keeps n freshId fun _ _ => True := fun _ hs _ => ⟨hs, le_rfl, trivial⟩

theorem keeps_declareVariable {readOnly : Bool} {t : Ty} (ht : t.WellFormed n) :
    Keeps n (declareVariable name readOnly t p) fun v m => v.type.WellFormed m := by
  refine keeps_freshId.bind fun id m hm _ => ?_
  have hdeclare := keeps_declare name p (x := .variable ⟨id, name, readOnly, t⟩) (ht.mono hm)
  exact hdeclare.bind fun _ k _ hv => .pure fun j hj => hv.mono hj

theorem signature_sound {env : Env} (henv : env.WellFormed) {params : List Binding}
    {result : Option TypeExpr} (hparams : ∀ t ∈ params.map (·.type), t.Formed)
    (hresult : ∀ t ∈ result, t.Formed) :
    Sound env (signature env params result) fun s =>
      (Ty.function s.1 s.2).WellFormed env.types.size := by
  refine (resolveAll_sound henv hparams).bind fun ts hts => ?_
  cases result with
  | none => exact .ok (.function hts.2 (.basic .void))
  | some t => exact (resolve_sound henv (hresult t rfl)).bind fun r hr => .ok (.function hts.2 hr)

theorem keeps_function {params : List Binding} {result : Option TypeExpr}
    (hparams : ∀ t ∈ params.map (·.type), t.Formed) (hresult : ∀ t ∈ result, t.Formed) :
    Keeps n (function name params result p) fun f m => f.type.WellFormed m := by
  have hsignature : Keeps n (ask fun env => signature env params result) fun s m =>
      (Ty.function s.1 s.2).WellFormed m :=
    keeps_ask fun _ henv _ => signature_sound henv hparams hresult
  refine hsignature.bind fun s m _ hs => keeps_freshId.bind fun id k hk _ => ?_
  have hdeclare := keeps_declare name p (x := .function ⟨id, name, s.1, s.2⟩) (hs.mono hk)
  exact hdeclare.bind fun _ l _ hf => .pure fun j hj => hf.mono hj

theorem fields_sound {env : Env} (henv : env.WellFormed) : ∀ {bs : List Binding},
    (∀ t ∈ bs.map (·.type), t.Formed) →
    Sound env (fields env bs) (∀ f ∈ ·, f.type.WellFormed env.types.size)
  | [], _ => .ok (List.forall_mem_nil _)
  | b :: bs, h => by
    obtain ⟨hb, hbs⟩ := List.forall_mem_cons.mp h
    exact (resolve_sound henv hb).bind fun t ht => (fields_sound henv hbs).bind fun fs hfs =>
      .ok (List.forall_mem_cons.mpr ⟨ht, hfs⟩)

theorem keeps_nextStruct : Keeps n nextStruct fun id m => id.index = m :=
  fun _ hs _ => ⟨hs, le_rfl, rfl⟩

theorem keeps_declareStruct : Keeps n (declareStruct name) fun _ m => n < m := by
  intro s hs hn
  have hsize := s.env.types.size_declare name
  refine ⟨hs.declareStruct name, ?_, ?_⟩
  · exact hsize ▸ Nat.le_succ _
  · exact hsize ▸ Nat.lt_succ_of_le hn

theorem keeps_defineStruct {id : StructId} {fs : List Field} (hid : id.index < n)
    (hfs : ∀ f ∈ fs, f.type.WellFormed n) : Keeps n (defineStruct id fs p) fun _ _ => True := by
  refine .get fun s hs hn => ?_
  cases hdefine : s.env.types.define id fs with
  | ok types =>
    obtain ⟨hsize, henv⟩ := hs.defineStruct (fun f hf => (hfs f hf).mono hn) hdefine
    exact ⟨henv, hsize.ge, trivial⟩
  | error cause =>
    refine ⟨hs, le_rfl, ?_⟩
    have hname := TypeTable.writes_name (hid.trans_le hn)
    unfold TypeTable.define at hdefine
    split at hdefine
    · cases hdefine
      exact hname
    · split_ifs at hdefine
      cases hdefine
      exact hname

/-! ## Expressions of statements -/

section

variable {a b : Expr}

/-- An expression whose type must be of a class. -/
theorem keeps_ofClass {inClass : Ty → Bool} {expected : String} (h : a.Formed) :
    Keeps n (ask fun env => do
      let e ← expr env a
      env.expectClass e.type inClass expected p
      return e) fun e m => e.WellFormed m :=
  keeps_ask fun _ henv _ => (expr_sound henv h).bind fun _ he =>
    (expectClass_sound he.here).bind fun _ _ => .ok he

theorem target_sound {env : Env} (henv : env.WellFormed) (h : a.Formed) :
    Sound env (target env a) (·.WellFormed env.types.size) := by
  refine (expr_sound henv h).bind fun e he => ?_
  cases hfault : targetFault? e with
  | none => exact .ok he
  | some cause =>
    refine .error ?_
    -- a fault of a target speaks of no type
    unfold targetFault? at hfault
    split at hfault
    · split_ifs at hfault
      cases hfault
      exact trivial
    all_goals cases hfault
    all_goals exact trivial

theorem keeps_assignment (ha : a.Formed) (hb : b.Formed) :
    Keeps n (assignment a b) fun r m => r.1.WellFormed m ∧ r.2.WellFormed m :=
  keeps_ask fun _ henv _ => (target_sound henv ha).bind fun _ hplace =>
    (expr_sound henv hb).bind fun _ hsource =>
      (expectAssignable_sound hsource.here hplace.here).bind fun _ _ => .ok ⟨hplace, hsource⟩

theorem keeps_counted (h : a.Formed) : Keeps n (counted a p) fun e m => e.WellFormed m :=
  keeps_ask fun _ henv _ => (target_sound henv h).bind fun _ he =>
    (expectClass_sound he.here).bind fun _ _ => .ok he

end

/-! ## Steps under watch -/

namespace Watched

theorem keeps_step {x : Checker α} {makes : α → List Product} (hx : Check.Keeps n x Q)
    (hmakes : ∀ a m, Q a m → ∀ y ∈ makes a, y.WellFormed m) : Keeps n (step x makes) Q := by
  intro w hw hn
  have hrun := hx w.state hw.env hn
  unfold step
  cases hstep : x w.state with
  | ok a s =>
    rw [hstep] at hrun
    obtain ⟨hs, hsize, hQ⟩ := hrun
    exact ⟨hw.reach hs hsize (hmakes a _ hQ), hsize, hQ⟩
  | error d s =>
    rw [hstep] at hrun
    obtain ⟨hs, hsize, hd⟩ := hrun
    exact ⟨hw.reach hs hsize (List.forall_mem_nil _), hsize, hd⟩

/-- A step that makes nothing. -/
theorem keeps_silent {x : Checker α} (hx : Check.Keeps n x Q) : Keeps n (step x fun _ => []) Q :=
  keeps_step hx fun _ _ _ => List.forall_mem_nil _

theorem keeps_make {xs : List Product} (hxs : ∀ x ∈ xs, x.WellFormed n) :
    Keeps n (make xs) fun _ _ => True :=
  fun _ hw hn => ⟨hw.reach hw.env le_rfl fun x hx => (hxs x hx).mono hn, le_rfl, trivial⟩

/-- Leaving a scope loses no struct, so that a fault inside it is described as well outside. -/
theorem keeps_inScope {kind : ScopeKind} {body : Watched α}
    (hkind : ∀ f, kind = .function f → f.type.WellFormed n) (hbody : Keeps n body Q) :
    Keeps n (inScope kind body) Q := by
  intro w hw hn
  have hinside : (w.reach (w.state.enter kind) []).WellFormed :=
    hw.reach (hw.env.push fun f hf => (hkind f hf).mono hn) le_rfl (List.forall_mem_nil _)
  have hrun := hbody _ hinside hn
  unfold inScope
  cases hb : body (w.reach (w.state.enter kind) []) with
  | ok a w' =>
    rw [hb] at hrun
    obtain ⟨hw', hsize, hQ⟩ := hrun
    exact ⟨hw'.reach hw'.env.pop le_rfl (List.forall_mem_nil _), hsize, hQ⟩
  | error d w' =>
    rw [hb] at hrun
    obtain ⟨hw', hsize, hd⟩ := hrun
    exact ⟨hw'.reach hw'.env.pop le_rfl (List.forall_mem_nil _), hsize, hd⟩

theorem keeps_expr {a : Expr} (h : a.Formed) : Keeps n (expr a) fun e m => e.WellFormed m :=
  keeps_step (keeps_ask fun _ henv _ => expr_sound henv h) fun _ _ he =>
    List.forall_mem_singleton.mpr he

theorem keeps_condition {a : Expr} (h : a.Formed) :
    Keeps n (condition a) fun e m => e.WellFormed m :=
  keeps_step (keeps_ofClass h) fun _ _ he => List.forall_mem_singleton.mpr he

theorem keeps_integer {a : Expr} (h : a.Formed) :
    Keeps n (integer a) fun e m => e.WellFormed m :=
  keeps_step (keeps_ofClass h) fun _ _ he => List.forall_mem_singleton.mpr he

theorem keeps_variable {readOnly : Bool} {t : Ty} (ht : t.WellFormed n) :
    Keeps n («variable» name readOnly t p) fun v m => v.type.WellFormed m :=
  keeps_step (keeps_declareVariable ht) fun _ _ hv => List.forall_mem_singleton.mpr hv

/-- The number of a struct is in the table from the moment it is handed out. -/
theorem keeps_struct {bindings : List Binding} (h : ∀ t ∈ bindings.map (·.type), t.Formed) :
    Keeps n (struct name bindings p) fun t m => t.WellFormed m := by
  refine (keeps_silent keeps_nextStruct).bind fun id m _ hid => ?_
  refine (keeps_silent keeps_declareStruct).bind fun _ k _ hmk => ?_
  have hstruct : (Ty.struct id).WellFormed k := .struct (hid ▸ hmk)
  have hname := keeps_declare name p (x := .type (.struct id)) hstruct
  have hfields : ∀ j, Check.Keeps j (ask fun env => fields env bindings)
      fun fs m => ∀ f ∈ fs, f.type.WellFormed m :=
    fun _ => keeps_ask fun _ henv _ => fields_sound henv h
  refine .bind (keeps_step hname fun _ _ ht => List.forall_mem_singleton.mpr ht) fun _ j hkj _ => ?_
  refine .bind (keeps_step (hfields j) fun _ _ hfs => List.forall_mem_map.mpr hfs)
    fun fs i hji hfs => ?_
  have hindex : id.index < i := (hid ▸ hmk).trans_le (hkj.trans hji)
  refine (keeps_silent (keeps_defineStruct hindex hfs)).bind fun _ l hil _ => .pure fun l' hl => ?_
  refine .node ⟨?_, List.forall_mem_nil _⟩ (List.forall_mem_nil _) (List.forall_mem_nil _)
  rintro x ⟨⟩
  exact .struct (hindex.trans_le (hil.trans hl))

theorem keeps_parameters : ∀ {bs : List Binding} {ts : List Ty} {n : Nat},
    (∀ t ∈ ts, t.WellFormed n) →
    Keeps n (parameters bs ts) fun vs m => ∀ v ∈ vs, v.type.WellFormed m
  | b :: bs, t :: ts, n, h => by
    obtain ⟨ht, hts⟩ := List.forall_mem_cons.mp h
    rw [parameters]
    refine (keeps_variable ht).bind fun v m hm hv => ?_
    refine (keeps_parameters fun u hu => (hts u hu).mono hm).bind fun vs k hk hvs => .pure ?_
    exact fun j hj => List.forall_mem_cons.mpr
      ⟨hv.mono (hk.trans hj), fun u hu => (hvs u hu).mono hj⟩
  | [], _, _, _ | _ :: _, [], _, _ => .pure fun _ _ => List.forall_mem_nil _

end Watched

theorem keeps_giveBack {value : Option Expr} (h : ∀ a ∈ value, a.Formed) :
    Keeps n (giveBack value p) fun t m => t.WellFormed m := by
  have hplain : ∀ {v : Option Typed.Expr} {m : Nat}, (∀ e ∈ v, e.WellFormed m) →
      (Typed.Stmt.giveBack v).WellFormed m := by
    intro v m hv
    refine .node (Typed.Stmt.declaresWellFormed_of_none rfl rfl) ?_ (List.forall_mem_nil _)
    cases v with
    | none => exact List.forall_mem_nil _
    | some e => exact List.forall_mem_singleton.mpr (hv e rfl)
  refine keeps_ask fun env henv _ => ?_
  cases hf : env.scopes.function with
  | none => exact .error trivial
  | some f =>
    have hresult := (henv.functions _ List.mem_cons_self f hf).signature.2
    cases value with
    | none =>
      refine .ite (.ok (hplain ?_)) (.error trivial)
      rintro e ⟨⟩
    | some a =>
      refine .ite (.error trivial) ?_
      refine (expr_sound henv (h a rfl)).bind fun e he =>
        (expectAssignable_sound he.here hresult).bind fun _ _ => .ok (hplain ?_)
      rintro e ⟨⟩
      exact he

theorem wellFormed_typedBranch {e : Typed.Expr} {yes : List Typed.Stmt}
    {no : Option (List Typed.Stmt)} (he : e.WellFormed n) (hyes : ∀ t ∈ yes, t.WellFormed n)
    (hno : ∀ ts ∈ no, ∀ t ∈ ts, t.WellFormed n) : (typedBranch e yes no).WellFormed n := by
  cases no with
  | none =>
    exact .node (Typed.Stmt.declaresWellFormed_of_none rfl rfl)
      (List.forall_mem_singleton.mpr he) hyes
  | some no =>
    exact .node (Typed.Stmt.declaresWellFormed_of_none rfl rfl)
      (List.forall_mem_singleton.mpr he) (List.forall_mem_append.mpr ⟨hyes, hno no rfl⟩)

/-- The scopes of blocks and loops belong to the function around them. -/
theorem keeps_body {kind : ScopeKind} (hkind : kind = .block ∨ kind = .loop) {body : Watched α}
    (hbody : Watched.Keeps n body Q) : Watched.Keeps n (Watched.inScope kind body) Q := by
  refine Watched.keeps_inScope (fun f hf => ?_) hbody
  rcases hkind with rfl | rfl <;> cases hf

/-- The iterator of a loop and its body. -/
theorem keeps_iteration {t : Ty} (ht : t.WellFormed n) {body : Watched (List Typed.Stmt)}
    (hbody : ∀ m, Watched.Keeps m body fun ts k => ∀ u ∈ ts, u.WellFormed k) :
    Watched.Keeps n (Watched.inScope .loop do
        let v ← Watched.variable name true t p
        return (v, ← body)) fun r m =>
      r.1.type.WellFormed m ∧ ∀ u ∈ r.2, u.WellFormed m := by
  refine keeps_body (.inr rfl) ((Watched.keeps_variable ht).bind fun v m _ hv => ?_)
  refine (hbody m).bind fun ts k hk hts => .pure fun j hj => ⟨hv.mono (hk.trans hj), ?_⟩
  exact fun u hu => (hts u hu).mono hj

end

open Watched (keeps_expr keeps_condition keeps_integer keeps_variable keeps_struct keeps_parameters
  keeps_step keeps_silent keeps_inScope keeps_make)

mutual

theorem keeps_stmt : ∀ {a : Stmt} {n : Nat}, a.Formed →
    Watched.Keeps n (Watched.stmt a) fun t m => t.WellFormed m
  | .declare name isConstant byReference value span, n, h => by
    have hvalue := List.forall_mem_singleton.mp h.exprs
    rw [Watched.stmt]
    refine (keeps_expr hvalue).bind fun e m _ he =>
      (keeps_variable he.here).bind fun v k hk hv => .pure fun j hj => .node ⟨?_, ?_⟩ ?_ ?_
    · rintro x ⟨⟩
      exact hv.mono hj
    · exact List.forall_mem_nil _
    · exact List.forall_mem_singleton.mpr (he.mono (hk.trans hj))
    · exact List.forall_mem_nil _
  | .struct name bindings span, n, h => by
    rw [Watched.stmt]
    exact keeps_struct h.annotations
  | .function name params result (.mk body _) span, n, h => by
    obtain ⟨hparams, hresult⟩ := List.forall_mem_append.mp h.annotations
    have hbody := List.forall_mem_singleton.mp h.inside
    have hfunction : Keeps n (function name params result span.start) fun f m =>
        f.type.WellFormed m :=
      keeps_function hparams fun t ht => hresult t (Option.mem_toList.mpr ht)
    rw [Watched.stmt]
    refine .bind (keeps_step hfunction fun _ _ hf => List.forall_mem_singleton.mpr hf)
      fun f m _ hf => ?_
    have hinside : Watched.Keeps m (do
        let params ← Watched.parameters params f.params
        return (params, ← Watched.stmts body)) fun r k =>
          (∀ v ∈ r.1, v.type.WellFormed k) ∧ ∀ t ∈ r.2, t.WellFormed k := by
      refine (keeps_parameters hf.signature.1).bind fun vs k _ hvs =>
        (keeps_stmts hbody).bind fun ts j hj hts => .pure fun i hi => ⟨?_, ?_⟩
      · exact fun v hv => (hvs v hv).mono (hj.trans hi)
      · exact fun t ht => (hts t ht).mono hi
    refine (keeps_inScope (fun g hg => ?_) hinside).bind fun r k hk hr => .pure fun j hj =>
      .node ⟨?_, fun v hv => (hr.1 v hv).mono hj⟩ (List.forall_mem_nil _)
        fun t ht => (hr.2 t ht).mono hj
    · cases hg
      exact hf
    · rintro x ⟨⟩
      exact hf.mono (hk.trans hj)
  | .assign t v byReference span, n, h => by
    obtain ⟨ht, hv⟩ := List.forall_mem_cons.mp h.exprs
    have hassign : Keeps n (assignment t v) fun r m => r.1.WellFormed m ∧ r.2.WellFormed m :=
      keeps_assignment ht (List.forall_mem_singleton.mp hv)
    rw [Watched.stmt]
    refine .bind (keeps_step hassign fun r m hr => ?_) fun r m _ hr => .pure fun k hk => ?_
    · exact List.forall_mem_cons.mpr ⟨hr.1, List.forall_mem_singleton.mpr hr.2⟩
    · refine .node (Typed.Stmt.declaresWellFormed_of_none rfl rfl) ?_ (List.forall_mem_nil _)
      exact List.forall_mem_cons.mpr ⟨hr.1.mono hk, List.forall_mem_singleton.mpr (hr.2.mono hk)⟩
  | .increment t span, n, h | .decrement t span, n, h => by
    have hcounted : Keeps n (counted t span.start) fun e m => e.WellFormed m :=
      keeps_counted (List.forall_mem_singleton.mp h.exprs)
    rw [Watched.stmt]
    refine .bind (keeps_step hcounted fun _ _ he => List.forall_mem_singleton.mpr he)
      fun e m _ he => .pure fun k hk => ?_
    exact .node (Typed.Stmt.declaresWellFormed_of_none rfl rfl)
      (List.forall_mem_singleton.mpr (he.mono hk)) (List.forall_mem_nil _)
  | .breakLoop span, n, h => by
    rw [Watched.stmt]
    refine keeps_silent (keeps_ask fun env _ _ => .ite (.ok ?_) (.error trivial))
    exact .node (Typed.Stmt.declaresWellFormed_of_none rfl rfl) (List.forall_mem_nil _)
      (List.forall_mem_nil _)
  | .giveBack value span, n, h => by
    rw [Watched.stmt]
    refine keeps_silent (keeps_giveBack ?_)
    rintro a ⟨⟩
    exact List.forall_mem_singleton.mp h.exprs
  | .branch test (.mk body _) rest span, n, h => by
    have htest := List.forall_mem_singleton.mp h.exprs
    obtain ⟨hbody, hrest⟩ := List.forall_mem_cons.mp h.inside
    rw [Watched.stmt]
    refine (keeps_condition htest).bind fun e m _ he =>
      (keeps_body (.inl rfl) (keeps_stmts hbody)).bind fun yes k hk hyes =>
        (keeps_alternative hrest).bind fun no j hj hno => .pure fun i hi => ?_
    exact wellFormed_typedBranch (he.mono (hk.trans (hj.trans hi)))
      (fun t ht => (hyes t ht).mono (hj.trans hi)) fun ts hts t ht => (hno ts hts t ht).mono hi
  | .whileLoop test (.mk body _) span, n, h => by
    rw [Watched.stmt]
    refine (keeps_condition (List.forall_mem_singleton.mp h.exprs)).bind fun e m _ he =>
      (keeps_body (.inr rfl) (keeps_stmts (List.forall_mem_singleton.mp h.inside))).bind
        fun ts k hk hts => .pure fun j hj => ?_
    exact .node (Typed.Stmt.declaresWellFormed_of_none rfl rfl)
      (List.forall_mem_singleton.mpr (he.mono (hk.trans hj))) fun t ht => (hts t ht).mono hj
  | .repeatLoop count (.mk body _) span, n, h => by
    rw [Watched.stmt]
    refine (keeps_integer (List.forall_mem_singleton.mp h.exprs)).bind fun e m _ he =>
      (keeps_body (.inr rfl) (keeps_stmts (List.forall_mem_singleton.mp h.inside))).bind
        fun ts k hk hts => .pure fun j hj => ?_
    exact .node (Typed.Stmt.declaresWellFormed_of_none rfl rfl)
      (List.forall_mem_singleton.mpr (he.mono (hk.trans hj))) fun t ht => (hts t ht).mono hj
  | .rangeLoop iterator low op high (.mk body _) span, n, h => by
    obtain ⟨hlow, hhigh⟩ := List.forall_mem_cons.mp h.exprs
    have hbody := List.forall_mem_singleton.mp h.inside
    rw [Watched.stmt]
    refine (keeps_integer hlow).bind fun a m _ ha =>
      (keeps_integer (List.forall_mem_singleton.mp hhigh)).bind fun b k hk hb =>
        (keeps_iteration (.basic .int) fun _ => keeps_stmts hbody).bind fun r j hj hr =>
          .pure fun i hi => .node ⟨?_, ?_⟩ ?_ fun t ht => (hr.2 t ht).mono hi
    · rintro x ⟨⟩
    · exact List.forall_mem_singleton.mpr (hr.1.mono hi)
    · exact List.forall_mem_cons.mpr ⟨ha.mono (hk.trans (hj.trans hi)),
        List.forall_mem_singleton.mpr (hb.mono (hj.trans hi))⟩
  | .eachLoop iterator e (.mk body _) span, n, h => by
    have hbody := List.forall_mem_singleton.mp h.inside
    rw [Watched.stmt]
    refine (keeps_expr (List.forall_mem_singleton.mp h.exprs)).bind fun c m _ hc => ?_
    have helement : Keeps m (ask fun env => expectArray env c.type e.span.start) fun t k =>
        t.WellFormed k :=
      keeps_ask fun _ _ hm => expectArray_sound (hc.here.mono hm)
    refine .bind (keeps_step helement fun _ _ ht => List.forall_mem_singleton.mpr ht)
      fun t k hk ht => (keeps_iteration ht fun _ => keeps_stmts hbody).bind fun r j hj hr =>
        .pure fun i hi => .node ⟨?_, ?_⟩ ?_ fun u hu => (hr.2 u hu).mono hi
    · rintro x ⟨⟩
    · exact List.forall_mem_singleton.mpr (hr.1.mono hi)
    · exact List.forall_mem_singleton.mpr (hc.mono (hk.trans (hj.trans hi)))
  | .perform e span, n, h => by
    rw [Watched.stmt]
    refine (keeps_expr (List.forall_mem_singleton.mp h.exprs)).bind fun e m _ he =>
      .pure fun k hk => ?_
    exact .node (Typed.Stmt.declaresWellFormed_of_none rfl rfl)
      (List.forall_mem_singleton.mpr (he.mono hk)) (List.forall_mem_nil _)
termination_by structural a => a

theorem keeps_alternative : ∀ {rest : Alternative} {n : Nat},
    (∀ us ∈ rest.bodies, ∀ a ∈ us, a.Formed) →
    Watched.Keeps n (Watched.alternative rest) fun no m => ∀ ts ∈ no, ∀ t ∈ ts, t.WellFormed m
  | .nothing, n, _ => by
    rw [Watched.alternative]
    refine .pure fun _ _ => ?_
    rintro ts ⟨⟩
  | .otherwise (.mk body _), n, h => by
    rw [Watched.alternative]
    refine (keeps_body (.inl rfl) (keeps_stmts (List.forall_mem_singleton.mp h))).bind
      fun ts m _ hts => .pure fun k hk => ?_
    rintro us ⟨⟩
    exact fun t ht => (hts t ht).mono hk
  | .elseIf test (.mk body _) rest span, n, h => by
    have hbranch := List.forall_mem_singleton.mp (List.forall_mem_singleton.mp h)
    obtain ⟨hbody, hrest⟩ := List.forall_mem_cons.mp hbranch.inside
    rw [Watched.alternative]
    refine (keeps_condition (List.forall_mem_singleton.mp hbranch.exprs)).bind fun e m _ he =>
      (keeps_body (.inl rfl) (keeps_stmts hbody)).bind fun yes k hk hyes =>
        (keeps_alternative hrest).bind fun no j hj hno => ?_
    have hmade : (typedBranch e yes no).WellFormed j :=
      wellFormed_typedBranch (he.mono (hk.trans hj)) (fun t ht => (hyes t ht).mono hj) hno
    refine .bind (keeps_make (List.forall_mem_singleton.mpr hmade)) fun _ i hi _ =>
      .pure fun l hl => ?_
    rintro us ⟨⟩
    exact List.forall_mem_singleton.mpr (hmade.mono (hi.trans hl))
termination_by structural rest => rest

/-- **The watched checker keeps all types well formed.** -/
theorem keeps_stmts : ∀ {as : List Stmt} {n : Nat}, (∀ a ∈ as, a.Formed) →
    Watched.Keeps n (Watched.stmts as) fun ts m => ∀ t ∈ ts, t.WellFormed m
  | [], n, _ => by
    rw [Watched.stmts]
    exact .pure fun _ _ => List.forall_mem_nil _
  | a :: as, n, h => by
    obtain ⟨ha, has⟩ := List.forall_mem_cons.mp h
    rw [Watched.stmts]
    refine (keeps_stmt ha).bind fun t m _ ht => ?_
    refine .bind (keeps_make (List.forall_mem_singleton.mpr ht)) fun _ k hk _ => ?_
    refine (keeps_stmts has).bind fun ts j hj hts => .pure fun i hi => ?_
    exact List.forall_mem_cons.mpr
      ⟨ht.mono (hk.trans (hj.trans hi)), fun u hu => (hts u hu).mono hi⟩
termination_by structural as => as

end

/-! ## Programs -/

/-- A program whose statements are well formed in its table is well formed. -/
theorem wellFormed_of_statements {p : Typed.Program} (htypes : p.types.WellFormed)
    (h : ∀ t ∈ p.statements, t.WellFormed p.types.size) : p.WellFormed where
  types := htypes
  declared _ _ ht := (Typed.Stands.everywhere h ht).here
  nodes _ _ ht := (Typed.Stands.everywhere h ht).exprs

/-- **Types in flight are well formed.** The types of the library mention no struct and are well
formed, and the program is one that was read. Then at every moment of the check, which is the same
with a watch and without, all types are well formed in the table as it is then. If a fault ends the
check, the types that it speaks of are, and are described without leaving the table of some moment.
The program that comes out is well formed, before simplification and after any number of passes. -/
theorem watch_wellFormed {lib : Library} {tokens : List Token} {file : String} {b : Block}
    (hlib : lib.WellFormed) (hparse : parse tokens file = .ok b) :
    (watch lib b).1 = program lib b ∧
      (∀ m ∈ (watch lib b).2, m.WellFormed) ∧
      (∀ d, program lib b = .error d →
        ∃ m ∈ (watch lib b).2, d.cause.DescribedBy m.env.types) ∧
      ∀ p, program lib b = .ok p → ∀ n, (p.simplifyTimes n).WellFormed := by
  have hrun := keeps_stmts (n := 0) (formed_of_parse hparse) (.start lib) (.start hlib)
    (Nat.zero_le _)
  refine ⟨watch_fst lib b, ?_⟩
  rw [← watch_fst]
  unfold watch
  cases hstmts : Watched.stmts b.body (.start lib) with
  | ok ts w =>
    rw [hstmts] at hrun
    obtain ⟨hw, -, hts⟩ := hrun
    refine ⟨hw.moments, ?_, ?_⟩
    · rintro d ⟨⟩
    · rintro p ⟨⟩ n
      exact Typed.Program.wellFormed_simplifyTimes (wellFormed_of_statements hw.env.types hts) n
  | error d w =>
    rw [hstmts] at hrun
    obtain ⟨hw, -, hd⟩ := hrun
    refine ⟨hw.moments, ?_, ?_⟩
    · rintro e ⟨⟩
      obtain ⟨m, hm, henv⟩ := hw.present
      exact ⟨m, hm, henv ▸ hd⟩
    · rintro p ⟨⟩

namespace Sample

/-- `struct Node { next: Node? } fn f(n: Node?): <int, bool> { return [1, true][0]; }` -/
def chain : List Token :=
  [.word .structWord, .name "Node", .mark .openCurly, .name "next", .mark .colon, .name "Node",
    .mark .question, .mark .closeCurly, .word .fnWord, .name "f", .mark .openParen, .name "n",
    .mark .colon, .name "Node", .mark .question, .mark .closeParen, .mark .colon, .mark .less,
    .name "int", .mark .comma, .name "bool", .mark .greater, .mark .openCurly, .word .returnWord,
    .mark .openBracket, .integer "1", .mark .comma, .word .trueWord, .mark .closeBracket,
    .mark .openBracket, .integer "0", .mark .closeBracket, .mark .semicolon,
    .mark .closeCurly].map Terminal.token

/-- The tree of `chain`. -/
def chainTree : Block :=
  let s : Span := .nowhere
  .mk [
    .struct "Node" [⟨"next", .optional (.named "Node" s) s, s⟩] s,
    .function "f" [⟨"n", .optional (.named "Node" s) s, s⟩]
      (some (.sum [.named "int" s, .named "bool" s] s))
      (.mk [.giveBack (some (.subscript (.array [.int 1 s, .bool true s] s) (.int 0 s) s)) s] s)
      s] s

/-- `chainTree` once it is checked. -/
def checkedChain : Typed.Program :=
  let node : Ty := .optional (.struct ⟨0⟩)
  let items : Typed.Expr := .array [.int 1, .bool true] (.array intOrBool)
  ⟨[.struct ⟨0⟩, .function ⟨0, "f", [node], intOrBool⟩ [⟨1, "n", false, node⟩]
      [.giveBack (some (.subscript items (.int 0) intOrBool))]],
    ⟨[⟨"Node", [⟨"next", node⟩]⟩]⟩⟩

end Sample

/-- The struct is in the table from the third moment on, before its name and its fields are. -/
theorem watch_wellFormed_chain :
    Sample.basics.WellFormed ∧ parse Sample.chain "" = .ok Sample.chainTree ∧
      program Sample.basics Sample.chainTree = .ok Sample.checkedChain ∧
      (watch Sample.basics Sample.chainTree).2.map (·.env.types.size) =
        [0, 0, 1, 1, 1, 1, 1, 1, 1, 1, 1, 1, 1, 1] ∧
      (∀ m ∈ (watch Sample.basics Sample.chainTree).2, m.WellFormed) ∧
      Sample.checkedChain.simplify.WellFormed := by
  have hlib : Sample.basics.WellFormed :=
    List.forall_mem_cons.mpr ⟨.basic .any, List.forall_mem_cons.mpr
      ⟨.basic .int, List.forall_mem_singleton.mpr (.basic .bool)⟩⟩
  have hparse : parse Sample.chain "" = .ok Sample.chainTree := by cbv
  have hprogram : program Sample.basics Sample.chainTree = .ok Sample.checkedChain := by cbv
  obtain ⟨-, hmoments, -, hwell⟩ := watch_wellFormed hlib hparse
  exact ⟨hlib, hparse, hprogram, by cbv, hmoments, hwell _ hprogram 1⟩

end Quill.Check
