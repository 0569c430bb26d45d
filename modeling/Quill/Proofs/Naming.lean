import Quill.Proofs.Agreement

/-!
# What names stand for

Names are lexical. `Site.Denotes` says, of a place in a finished program, which entity a name stands
for there: the one of its last declaration before the place, in the innermost scope around the place
that has one; the names of the library are in the outermost scope, before all others. `Means` says
of an annotation or an expression and of what came out of it that they are the same, with each name
replaced by what it denotes. `NamedAt` says so of a statement and its twin, and that the twin
declares its entities under the names that are written: the fields of a struct are read where the
struct is known already, parameters where the function is not, and the value of a variable where the
variable is not.

Results:
* `Site.denotes_iff`: what a name denotes is what looking it up gives.
* `resolve_means`, `expr_means`: names in annotations and expressions are replaced by what they
  denote.
* `Agrees.namedAt`: statements.
* **`Check.program_lexical`**: in a checked program no scope declares a name twice, every statement
  has a twin, and every pair of twins is named alike.
-/

namespace Quill

/-! ## Denotation -/

/-- **The name stands for the entity at the place**: in one of the scopes around, the entity is the
last one that is declared under the name, and no scope further in declares the name. -/
def Typed.Site.Denotes (lib : Library) (types : TypeTable) (d : Typed.Site) (name : String)
    (x : Entity) : Prop :=
  ∃ inner earlier later outer,
    d.scopes lib types = inner ++ (earlier ++ (name, x) :: later) :: outer ∧
      name ∉ later.map Prod.fst ∧ ∀ scope ∈ inner, name ∉ scope.map Prod.fst

/-- The names that a list of statements declares in its scope. -/
def Typed.declaredNames (types : TypeTable) (ts : List Typed.Stmt) : List String :=
  (ts.filterMap Typed.Stmt.declared?).map (Entity.nameIn types)

theorem lookup_reverse_eq_none {scope : List (String × Entity)} {name : String} :
    scope.reverse.lookup name = none ↔ name ∉ scope.map Prod.fst := by
  rw [Scopes.lookup_eq_none_iff_not_mem, List.map_reverse, List.mem_reverse]

theorem lookup_reverse_eq_some {scope : List (String × Entity)} {name : String} {x : Entity} :
    scope.reverse.lookup name = some x ↔
      ∃ earlier later, scope = earlier ++ (name, x) :: later ∧ name ∉ later.map Prod.fst := by
  rw [List.lookup_eq_some_iff]
  constructor
  · rintro ⟨l, r, hlr, hl⟩
    refine ⟨r.reverse, l.reverse, ?_, ?_⟩
    · rw [← List.reverse_reverse scope, hlr]
      simp
    · rw [← lookup_reverse_eq_none, List.reverse_reverse, List.lookup_eq_none_iff]
      exact hl
  · rintro ⟨earlier, later, rfl, hlater⟩
    refine ⟨later.reverse, earlier.reverse, by simp, ?_⟩
    rw [← lookup_reverse_eq_none, List.lookup_eq_none_iff] at hlater
    exact hlater

/-- What a name denotes is what looking it up gives. -/
theorem Typed.Site.denotes_iff {lib : Library} {types : TypeTable} {d : Typed.Site} {name : String}
    {x : Entity} : d.Denotes lib types name x ↔ d.lookup lib types name = some x := by
  simp only [Denotes, lookup, List.findSome?_eq_some_iff, lookup_reverse_eq_some,
    lookup_reverse_eq_none]
  constructor
  · rintro ⟨inner, earlier, later, outer, hd, hlater, hinner⟩
    exact ⟨inner, _, outer, hd, ⟨earlier, later, rfl, hlater⟩, hinner⟩
  · rintro ⟨inner, _, outer, hd, ⟨earlier, later, rfl, hlater⟩, hinner⟩
    exact ⟨inner, earlier, later, outer, hd, hlater, hinner⟩

namespace Syntax

/-! ## Meaning -/

/-- The annotation means the type, where names denote entities as given. -/
inductive TypeExpr.Means (den : String → Entity → Prop) : TypeExpr → Ty → Prop
  | named {name : String} {span : Span} {t : Ty} (h : den name (.type t)) :
      Means den (.named name span) t
  | array {a : TypeExpr} {span : Span} {t : Ty} (h : Means den a t) :
      Means den (.array a span) (.array t)
  | optional {a : TypeExpr} {span : Span} {t : Ty} (h : Means den a t) :
      Means den (.optional a span) (.optional t)
  | sum {as : List TypeExpr} {span : Span} {ts : List Ty} (h : List.Forall₂ (Means den) as ts) :
      Means den (.sum as span) (.ofAlternatives ts)
  | function {as : List TypeExpr} {r : TypeExpr} {span : Span} {ts : List Ty} {t : Ty}
      (hparams : List.Forall₂ (Means den) as ts) (hresult : Means den r t) :
      Means den (.function as r span) (.function ts t)

/-- The expression means the typed one, where names denote entities as given. -/
inductive Expr.Means (den : String → Entity → Prop) : Expr → Typed.Expr → Prop
  | int {n : Int64} {span : Span} : Means den (.int n span) (.int n)
  | float {x : Float} {span : Span} : Means den (.float x span) (.float x)
  | string {s : String} {span : Span} : Means den (.string s span) (.string s)
  | bool {b : Bool} {span : Span} : Means den (.bool b span) (.bool b)
  | variable {name : String} {span : Span} {v : Variable} (h : den name (.variable v)) :
      Means den (.symbol name span) (.variable v)
  | function {name : String} {span : Span} {f : Function} (h : den name (.function f)) :
      Means den (.symbol name span) (.function f)
  | binary {op : BinaryOp} {l r : Expr} {span : Span} {left right : Typed.Expr} {t : Ty}
      (hl : Means den l left) (hr : Means den r right) :
      Means den (.binary op l r span) (.binary op left right t)
  | unary {op : UnaryOp} {a : Expr} {span : Span} {operand : Typed.Expr} {t : Ty}
      (h : Means den a operand) : Means den (.unary op a span) (.unary op operand t)
  | conditional {a y n : Expr} {span : Span} {test yes no : Typed.Expr} {t : Ty}
      (ha : Means den a test) (hy : Means den y yes) (hn : Means den n no) :
      Means den (.conditional a y n span) (.conditional test yes no t)
  | array {as : List Expr} {span : Span} {elements : List Typed.Expr} {t : Ty}
      (h : List.Forall₂ (Means den) as elements) : Means den (.array as span) (.array elements t)
  | emptyArray {a : TypeExpr} {span : Span} {t : Ty} (h : a.Means den t) :
      Means den (.emptyArray a span) (.emptyArray (.array t))
  | absent {a : TypeExpr} {span : Span} {t : Ty} (h : a.Means den t) :
      Means den (.absent a span) (.absent (.optional t))
  | subscript {a i : Expr} {span : Span} {items index : Typed.Expr} {t : Ty}
      (ha : Means den a items) (hi : Means den i index) :
      Means den (.subscript a i span) (.subscript items index t)
  | member {o : Expr} {field : String} {chained : Bool} {span : Span} {object : Typed.Expr} {t : Ty}
      (h : Means den o object) :
      Means den (.member o field chained span) (.member object field chained t)
  | call {c : Expr} {as : List Expr} {span : Span} {callee : Typed.Expr} {args : List Typed.Expr}
      {t : Ty} (hc : Means den c callee) (has : List.Forall₂ (Means den) as args) :
      Means den (.call c as span) (.call callee args t)
  /-- A call of the name of a struct makes one. -/
  | construct {name : String} {inner span : Span} {as : List Expr} {id : StructId}
      {args : List Typed.Expr} (h : den name (.type (.struct id)))
      (has : List.Forall₂ (Means den) as args) :
      Means den (.call (.symbol name inner) as span) (.construct id args)

/-- The expressions of a statement, those of the statements inside it left out. -/
def Stmt.exprs : Stmt → List Expr
  | .struct _ _ _ | .function _ _ _ _ _ | .breakLoop _ | .giveBack none _ => []
  | .declare _ _ _ e _ | .increment e _ | .decrement e _ | .giveBack (some e) _ | .branch e _ _ _
  | .whileLoop e _ _ | .repeatLoop e _ _ | .eachLoop _ e _ _ | .perform e _ => [e]
  | .assign target value _ _ => [target, value]
  | .rangeLoop _ low _ high _ _ => [low, high]

end Syntax

namespace Check

open Syntax
open Typed (Site)

/-- The written result of a function means the type; where none is written, it is `void`. -/
def ResultMeans (den : String → Entity → Prop) : Option TypeExpr → Ty → Prop
  | none, t => t = .void
  | some a, t => a.Means den t

/-- The statement at the place declares what its twin says, under the names that are written there,
and of the types that are written there. -/
def DeclaresAt (lib : Library) (types : TypeTable) (d : Site) : Stmt → Typed.Stmt → Prop
  | .declare name _ _ _ _, .declare v _ _ => v.name = name
  | .struct name bindings _, .struct id =>
    (types.get id).name = name ∧
      List.Forall₂ (fun b f => f.name = b.name ∧
          b.type.Means ((d.past [.struct id]).Denotes lib types) f.type)
        bindings (types.get id).fields
  | .function name params result _ _, .function f vs _ =>
    f.name = name ∧
      List.Forall₂ (fun b v => v.name = b.name ∧ b.type.Means (d.Denotes lib types) v.type)
        params vs ∧
      List.Forall₂ (fun b t => b.type.Means (d.Denotes lib types) t) params f.params ∧
      ResultMeans (d.Denotes lib types) result f.result
  | .rangeLoop iterator _ _ _ _ _, .rangeLoop v _ _ _ _ => v.name = iterator
  | .eachLoop iterator _ _ _, .eachLoop v _ _ => v.name = iterator
  | .assign _ _ _ _, .assign _ _ _ | .increment _ _, .increment _ | .decrement _ _, .decrement _
  | .breakLoop _, .breakLoop | .giveBack _ _, .giveBack _ | .branch _ _ _ _, .branch _ _ _
  | .branch _ _ _ _, .shortBranch _ _ | .whileLoop _ _ _, .whileLoop _ _
  | .repeatLoop _ _ _, .repeatLoop _ _ | .perform _ _, .perform _ => True
  | _, _ => False

/-- The twins are named alike: each name in the expressions of the one stands for what is in its
place in the other. -/
def NamedAt (lib : Library) (types : TypeTable) (d : Site) (a : Stmt) (t : Typed.Stmt) : Prop :=
  List.Forall₂ (Expr.Means (d.Denotes lib types)) a.exprs t.exprs ∧ DeclaresAt lib types d a t

/-! ## Annotations and expressions -/

/-- What is found in the environment is what names denote. -/
def FoundAs (env : Env) (den : String → Entity → Prop) : Prop :=
  ∀ name x, env.scopes.find? name = some x → den name x

variable {env : Env} {den : String → Entity → Prop}

mutual

/-- Names in annotations are replaced by what they denote. -/
theorem resolve_means (hden : FoundAs env den) : ∀ {a : TypeExpr} {t : Ty},
    resolve env a = .ok t → a.Means den t
  | .named name span, t, h => by
    rw [resolve] at h
    obtain ⟨x, hx, hrest⟩ := bind_eq_ok.mp h
    cases x with
    | type u =>
      cases hrest
      exact .named (hden name _ (find?_of_lookup hx))
    | _ => cases hrest
  | .array a span, t, h => by
    simp only [resolve, bind_eq_ok, pure_eq_ok] at h
    obtain ⟨u, hu, rfl⟩ := h
    exact .array (resolve_means hden hu)
  | .optional a span, t, h => by
    simp only [resolve, bind_eq_ok, pure_eq_ok] at h
    obtain ⟨u, hu, rfl⟩ := h
    exact .optional (resolve_means hden hu)
  | .sum as span, t, h => by
    simp only [resolve, bind_eq_ok, pure_eq_ok] at h
    obtain ⟨us, hus, rfl⟩ := h
    exact .sum (resolveAll_means hden hus)
  | .function as r span, t, h => by
    simp only [resolve, bind_eq_ok, pure_eq_ok] at h
    obtain ⟨us, hus, u, hu, rfl⟩ := h
    exact .function (resolveAll_means hden hus) (resolve_means hden hu)

theorem resolveAll_means (hden : FoundAs env den) : ∀ {as : List TypeExpr} {ts : List Ty},
    resolveAll env as = .ok ts → List.Forall₂ (TypeExpr.Means den) as ts
  | [], ts, h => by
    rw [resolveAll, pure_eq_ok] at h
    subst h
    exact .nil
  | a :: as, ts, h => by
    simp only [resolveAll, bind_eq_ok, pure_eq_ok] at h
    obtain ⟨t, ht, ts, hts, rfl⟩ := h
    exact .cons (resolve_means hden ht) (resolveAll_means hden hts)

end

mutual

/-- Names in expressions are replaced by what they denote. -/
theorem expr_means (hden : FoundAs env den) : ∀ {a : Expr} {e : Typed.Expr},
    expr env a = .ok e → a.Means den e
  | .int n span, e, h => by
    rw [expr, pure_eq_ok] at h
    subst h
    exact .int
  | .float x span, e, h => by
    rw [expr, pure_eq_ok] at h
    subst h
    exact .float
  | .string s span, e, h => by
    rw [expr, pure_eq_ok] at h
    subst h
    exact .string
  | .bool b span, e, h => by
    rw [expr, pure_eq_ok] at h
    subst h
    exact .bool
  | .symbol name span, e, h => by
    rw [expr] at h
    rcases symbol_eq h with ⟨v, hv, rfl⟩ | ⟨f, hf, rfl⟩
    · exact .variable (hden name _ hv)
    · exact .function (hden name _ hf)
  | .binary op l r span, e, h => by
    simp only [expr, bind_eq_ok, pure_eq_ok] at h
    obtain ⟨left, hl, right, hr, t, -, rfl⟩ := h
    exact .binary (expr_means hden hl) (expr_means hden hr)
  | .unary op a span, e, h => by
    simp only [expr, bind_eq_ok, pure_eq_ok] at h
    obtain ⟨operand, ho, t, -, rfl⟩ := h
    exact .unary (expr_means hden ho)
  | .conditional t y n span, e, h => by
    simp only [expr, bind_eq_ok, pure_eq_ok] at h
    obtain ⟨test, ht, _, -, yes, hy, no, hn, _, -, rfl⟩ := h
    exact .conditional (expr_means hden ht) (expr_means hden hy) (expr_means hden hn)
  | .array as span, e, h => by
    simp only [expr, bind_eq_ok, pure_eq_ok] at h
    obtain ⟨elements, hes, rfl⟩ := h
    exact .array (exprs_means hden hes)
  | .emptyArray a span, e, h => by
    simp only [expr, bind_eq_ok, pure_eq_ok] at h
    obtain ⟨t, ht, rfl⟩ := h
    exact .emptyArray (resolve_means hden ht)
  | .absent a span, e, h => by
    simp only [expr, bind_eq_ok, pure_eq_ok] at h
    obtain ⟨t, ht, rfl⟩ := h
    exact .absent (resolve_means hden ht)
  | .subscript a i span, e, h => by
    simp only [expr, bind_eq_ok, pure_eq_ok] at h
    obtain ⟨items, ha, element, -, index, hi, _, -, rfl⟩ := h
    exact .subscript (expr_means hden ha) (expr_means hden hi)
  | .member o field chained span, e, h => by
    simp only [expr, bind_eq_ok] at h
    obtain ⟨object, ho, hm⟩ := h
    obtain ⟨t, rfl, -⟩ := member_fielded hm
    exact .member (expr_means hden ho)
  | .call c as span, e, h => by
    rw [expr, bind_eq_ok] at h
    obtain ⟨made, hmade, hrest⟩ := h
    cases made with
    | some made =>
      simp only [bind_eq_ok, pure_eq_ok] at hrest
      obtain ⟨id, hid, _, hlen, args, hargs, rfl⟩ := hrest
      obtain ⟨name, _, rfl, hname⟩ := constructed?_eq hmade
      rw [expectStruct_ok hid] at hname
      exact .construct (hden name _ hname) (arguments_means hden (expectArity_ok hlen) hargs)
    | none =>
      simp only [bind_eq_ok, pure_eq_ok] at hrest
      obtain ⟨callee, hc, ⟨params, result⟩, -, _, hlen, args, hargs, rfl⟩ := hrest
      exact .call (expr_means hden hc) (arguments_means hden (expectArity_ok hlen) hargs)

theorem exprs_means (hden : FoundAs env den) : ∀ {as : List Expr} {es : List Typed.Expr},
    exprs env as = .ok es → List.Forall₂ (Expr.Means den) as es
  | [], es, h => by
    rw [exprs, pure_eq_ok] at h
    subst h
    exact .nil
  | a :: as, es, h => by
    simp only [exprs, bind_eq_ok, pure_eq_ok] at h
    obtain ⟨e, he, es, hes, rfl⟩ := h
    exact .cons (expr_means hden he) (exprs_means hden hes)

theorem arguments_means (hden : FoundAs env den) : ∀ {params : List Ty} {as : List Expr}
    {es : List Typed.Expr}, as.length = params.length → arguments env params as = .ok es →
    List.Forall₂ (Expr.Means den) as es
  | _, [], es, _, h => by
    rw [arguments, pure_eq_ok] at h
    subst h
    exact .nil
  | [], _ :: _, _, hlen, _ => absurd hlen (by simp)
  | t :: ts, a :: as, es, hlen, h => by
    simp only [arguments, bind_eq_ok, pure_eq_ok] at h
    obtain ⟨e, he, _, -, es, hes, rfl⟩ := h
    exact .cons (expr_means hden he) (arguments_means hden (by simpa using hlen) hes)

end

/-! ## Statements -/

variable {lib : Library} {types : TypeTable} {s s' : State} {d : Site}

theorem fields_means (hden : FoundAs env den) : ∀ {bs : List Binding} {fs : List Field},
    fields env bs = .ok fs →
    List.Forall₂ (fun b f => f.name = b.name ∧ b.type.Means den f.type) bs fs
  | [], fs, h => by
    rw [fields, pure_eq_ok] at h
    subst h
    exact .nil
  | b :: bs, fs, h => by
    simp only [fields, bind_eq_ok, pure_eq_ok] at h
    obtain ⟨t, ht, fs, hfs, rfl⟩ := h
    exact .cons ⟨rfl, resolve_means hden ht⟩ (fields_means hden hfs)

theorem signature_means (hden : FoundAs env den) {params : List Binding}
    {result : Option TypeExpr} {ts : List Ty} {r : Ty}
    (h : signature env params result = .ok (ts, r)) :
    List.Forall₂ (fun b t => b.type.Means den t) params ts ∧ ResultMeans den result r := by
  unfold signature at h
  obtain ⟨us, hus, hrest⟩ := bind_eq_ok.mp h
  have hparams := List.forall₂_map_left_iff.mp (resolveAll_means hden hus)
  cases result with
  | none =>
    cases hrest
    exact ⟨hparams, rfl⟩
  | some a =>
    obtain ⟨u, hu, hpure⟩ := bind_eq_ok.mp hrest
    cases hpure
    exact ⟨hparams, resolve_means hden hu⟩

/-- Parameters have the names and the types that are written. -/
theorem parameters_means {bs : List Binding} {ts : List Ty}
    (h : List.Forall₂ (fun b t => b.type.Means den t) bs ts) {vs : List Variable}
    (hvs : parameters bs ts s = .ok vs s') :
    List.Forall₂ (fun b v => v.name = b.name ∧ b.type.Means den v.type) bs vs := by
  induction h generalizing s s' vs with
  | nil =>
    obtain ⟨rfl, -⟩ := run_pure_ok.mp hvs
    exact .nil
  | cons hmeans _ ih =>
    simp only [parameters, run_bind_ok, run_pure_ok] at hvs
    obtain ⟨v, _, hv, vs, _, hrest, rfl, -⟩ := hvs
    obtain ⟨rfl, -, -⟩ := declareVariable_eq hv
    exact .cons ⟨rfl, hmeans⟩ (ih hrest)

theorem Agrees.foundAs (h : Agrees lib types s d) : FoundAs s.env (d.Denotes lib types) := by
  intro name x hx
  rwa [h.lookup, ← Site.denotes_iff] at hx

/-- The expressions of a statement that is checked where it stands. -/
theorem Agrees.exprs_means (h : Agrees lib types s d) {a : Stmt} {t : Typed.Stmt}
    (hc : Checks s (.stmt a t) s') :
    List.Forall₂ (Expr.Means (d.Denotes lib types)) a.exprs t.exprs := by
  have hden := h.foundAs
  cases hc with
  | declare he _ _ | increment he _ _ | decrement he _ _ | giveBack _ _ he _ | whileLoop he _ _
  | repeatLoop he _ _ | eachLoop he _ _ _ | perform he =>
    exact .cons (expr_means hden he) .nil
  | assign ht _ hv _ => exact .cons (expr_means hden ht) (.cons (expr_means hden hv) .nil)
  | rangeLoop hlow _ hhigh _ _ _ =>
    exact .cons (expr_means hden hlow) (.cons (expr_means hden hhigh) .nil)
  | @branch _ _ _ _ _ _ _ e yes no he _ _ _ =>
    cases no <;> exact .cons (expr_means hden he) .nil
  | _ => exact .nil

/-- What a statement that is checked where it stands declares. -/
theorem Agrees.declaresAt (h : Agrees lib types s d) {a : Stmt} {t : Typed.Stmt}
    (hc : Checks s (.stmt a t) s') (htypes : s'.env.types.structs <+: types.structs) :
    DeclaresAt lib types d a t := by
  have hden := h.foundAs
  have hafter := (h.past (hc.binds htypes)).foundAs
  cases hc with
  | declare _ hv _ => exact congrArg Variable.name hv
  | @struct _ name _ _ _ _ _ hfs _ =>
    have hown : FoundAs (s.structEnv name) _ := hafter
    rw [DeclaresAt, get_of_introduceStruct htypes]
    exact ⟨rfl, fields_means hown hfs⟩
  | function hsig hf _ hparams _ =>
    obtain ⟨hps, hr⟩ := signature_means hden hsig
    subst hf
    exact ⟨rfl, parameters_means hps hparams, hps, hr⟩
  | rangeLoop _ _ _ _ hv _ => exact congrArg Variable.name hv
  | eachLoop _ _ hv _ => exact congrArg Variable.name hv
  | @branch _ _ _ _ _ _ _ e yes no => cases no <;> exact trivial
  | _ => exact trivial

/-! ## Programs -/

theorem map_fst_bindings (types : TypeTable) (xs : List Entity) :
    (bindings types xs).map Prod.fst = xs.map (Entity.nameIn types) := by
  simp [bindings]

/-- The names in the outermost scope are new, also beside those of the library. -/
theorem declaredNames_new {b : Block} {p : Typed.Program} (h : program lib b = .ok p) :
    (Typed.declaredNames p.types p.statements).Nodup ∧
      ∀ name ∈ Typed.declaredNames p.types p.statements, name ∉ lib.entries.map Prod.fst := by
  obtain ⟨s, hs, hp⟩ := checks_of_program h
  have hbinds : Binds p.types (.initial lib) (p.statements.filterMap Typed.Stmt.declared?) s :=
    hs.binds (hp ▸ List.prefix_rfl)
  obtain ⟨hnodup, hnew⟩ := hbinds.new
  rw [map_fst_bindings] at hnodup hnew
  refine ⟨hnodup, fun name hname => ?_⟩
  have hnone := hnew name hname
  rw [Agrees.scopes_initial] at hnone
  exact lookup_reverse_eq_none.mp hnone

/-- The names in the scope of a list inside a statement are distinct. -/
theorem nodup_declaredNames {b : Block} {p : Typed.Program} (h : program lib b = .ok p)
    {t : Typed.Stmt} (ht : p.At d t) {body : List Typed.Stmt} (hbody : body ∈ t.bodies) :
    (t.locals.map (·.name) ++ Typed.declaredNames p.types body).Nodup := by
  obtain ⟨a, htwin⟩ := exists_twin h ht
  obtain ⟨s₁, s₂, hchecks, hgrows, hagree⟩ := checks_of_twin h htwin
  obtain ⟨as, hmem⟩ := hchecks.exists_mem_zip hbody
  obtain ⟨_, _, -, -, -, hnodup⟩ := hchecks.entered hgrows hagree hmem
  rw [map_fst_bindings, List.map_append, List.map_map] at hnodup
  exact hnodup

/-- **Names are lexical.** In a checked program no scope declares a name twice: neither the
outermost one, which has the names of the library too, nor that of a list inside a statement, which
has the parameters or the iterator of the statement. Every statement has a twin; and in every pair
of twins, each name stands for the entity of its last declaration before it in the innermost scope
that has one. -/
theorem program_lexical {b : Block} {p : Typed.Program} (h : program lib b = .ok p) :
    ((Typed.declaredNames p.types p.statements).Nodup ∧
      ∀ name ∈ Typed.declaredNames p.types p.statements, name ∉ lib.entries.map Prod.fst) ∧
    (∀ d t, p.At d t →
      (∀ body ∈ t.bodies, (t.locals.map (·.name) ++ Typed.declaredNames p.types body).Nodup) ∧
      ∃ a, Twin .start b.body p.statements d a t) ∧
    ∀ d a t, Twin .start b.body p.statements d a t → NamedAt lib p.types d a t := by
  refine ⟨declaredNames_new h, fun d t ht => ⟨fun body => nodup_declaredNames h ht,
    exists_twin h ht⟩, fun d a t htwin => ?_⟩
  obtain ⟨s₁, s₂, hchecks, hgrows, hagree⟩ := checks_of_twin h htwin
  exact ⟨hagree.exprs_means hchecks, hagree.declaresAt hchecks hgrows⟩

namespace Sample

/-- A library with one name. -/
def booleans : Library := ⟨[("bool", .type .bool)], 0, by simp [Entity.id?]⟩

/-- `let a = 1; fn same(a: bool): bool { return a; }` -/
def shadowing : Block :=
  let s : Span := default
  .mk [
    .declare "a" false false (.int 1 s) s,
    .function "same" [⟨"a", .named "bool" s, s⟩] (some (.named "bool" s))
      (.mk [.giveBack (some (.symbol "a" s)) s] s) s] s

/-- The function that `shadowing` declares. -/
def same : Function := ⟨1, "same", [.bool], .bool⟩

/-- Its parameter. -/
def shadow : Variable := ⟨2, "a", false, .bool⟩

/-- The variable of that name outside. -/
def shadowed : Typed.Stmt := .declare ⟨0, "a", false, .int⟩ false (.int 1)

/-- The function once it is checked. -/
def checkedSame : Typed.Stmt := .function same [shadow] [.giveBack (some (.variable shadow))]

/-- `shadowing` once it is checked. -/
def checkedShadowing : Typed.Program := ⟨[shadowed, checkedSame], .empty⟩

end Sample

theorem program_lexical_shadowing :
    program Sample.booleans Sample.shadowing = .ok Sample.checkedShadowing ∧
      ((Site.start.past [Sample.shadowed]).into Sample.checkedSame).Denotes Sample.booleans .empty
        "a" (.variable Sample.shadow) := by
  have hp : program Sample.booleans Sample.shadowing = .ok Sample.checkedShadowing := by cbv
  obtain ⟨-, -, hnamed⟩ := program_lexical hp
  have htwin : Twin .start Sample.shadowing.body Sample.checkedShadowing.statements
      ((Site.start.past [Sample.shadowed]).into Sample.checkedSame)
      (.giveBack (some (.symbol "a" default)) default)
      (.giveBack (some (.variable Sample.shadow))) :=
    .later (.inside List.mem_cons_self .here)
  obtain ⟨hexprs, -⟩ := hnamed _ _ _ htwin
  cases hexprs with
  | cons hmeans _ =>
    cases hmeans with
    | «variable» hden => exact ⟨hp, hden⟩

end Check

end Quill
