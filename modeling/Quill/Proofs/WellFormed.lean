import Quill.Proofs.Containment
import Quill.Proofs.Formed

/-!
# Well-formed types

`Ty.WellFormed n` says of a type that it mentions only structs with numbers below `n`, and that
every sum in it has alternatives, no two of which are the same. With `n` the number of structs in
the table, every struct that it mentions can be looked up: `describe?` writes a type as `describe`
does, but gives up at a struct that is not in the table, and it never does so on a well-formed type.

An environment is well formed if all types in it are: those of the names in scope, of the functions
around, and of the fields of structs. `Sound env x Q` says of a result `x` that it is a value with
the property `Q`, or a fault in which only well-formed types are described. In a well-formed
environment every annotation and every expression that is formed has a sound result: types are taken
apart and put together again, but stay well formed.

Results:
* `Ty.WellFormed.ofAlternatives`: sums that are made have each alternative once.
* `TypeTable.describe?_eq`: describing a well-formed type never leaves the table.
* **`Check.resolve_sound`**, **`Check.expr_sound`**: annotations and expressions.
* `Typed.Program.wellFormed_simplifyTimes`: simplification keeps programs well formed.
-/

namespace Quill

/-! ## Types -/

namespace Ty

/-- The type mentions only structs with numbers below `n`, and every sum in it has alternatives, no
two of which are the same. -/
inductive WellFormed (n : Nat) : Ty → Prop
  | basic (b : Basic) : WellFormed n (.basic b)
  | struct {id : StructId} (h : id.index < n) : WellFormed n (.struct id)
  | array {t : Ty} (h : WellFormed n t) : WellFormed n (.array t)
  | function {ps : List Ty} {r : Ty} (hparams : ∀ t ∈ ps, WellFormed n t)
      (hresult : WellFormed n r) : WellFormed n (.function ps r)
  | sum {ts : List Ty} (hne : ts ≠ []) (hdistinct : ts.Pairwise fun a b => a.equivalent b = false)
      (h : ∀ t ∈ ts, WellFormed n t) : WellFormed n (.sum ts)

variable {n m : Nat} {t base : Ty} {ts : List Ty}

theorem pairwise_foldl_distinct {seen : List Ty}
    (h : seen.Pairwise fun a b => a.equivalent b = false) :
    (ts.foldl (fun seen t => if seen.any (·.equivalent t) then seen else seen ++ [t]) seen).Pairwise
      fun a b => a.equivalent b = false := by
  induction ts generalizing seen with
  | nil => exact h
  | cons t ts ih =>
    rw [List.foldl_cons]
    split_ifs with hseen
    · exact ih h
    · refine ih (List.pairwise_append.mpr ⟨h, List.pairwise_singleton _ _, fun a ha b hb => ?_⟩)
      rw [List.mem_singleton.mp hb, ← Bool.not_eq_true]
      exact fun heq => hseen (List.any_eq_true.mpr ⟨a, ha, heq⟩)

namespace WellFormed

theorem mono (hnm : n ≤ m) (h : t.WellFormed n) : t.WellFormed m := by
  induction h with
  | basic b => exact .basic b
  | struct h => exact .struct (h.trans_le hnm)
  | array _ ih => exact .array ih
  | function _ _ hparams hresult => exact .function hparams hresult
  | sum hne hdistinct _ ih => exact .sum hne hdistinct ih

theorem index_lt {id : StructId} (h : (Ty.struct id).WellFormed n) : id.index < n := by
  cases h with
  | struct h => exact h

theorem element (h : (Ty.array t).WellFormed n) : t.WellFormed n := by
  cases h with
  | array h => exact h

theorem signature {r : Ty} (h : (Ty.function ts r).WellFormed n) :
    (∀ t ∈ ts, t.WellFormed n) ∧ r.WellFormed n := by
  cases h with
  | function hparams hresult => exact ⟨hparams, hresult⟩

theorem alternatives (h : (Ty.sum ts).WellFormed n) : ∀ t ∈ ts, t.WellFormed n := by
  cases h with
  | sum _ _ h => exact h

/-- A sum that is made has each alternative once. -/
theorem ofAlternatives (hne : ts ≠ []) (h : ∀ t ∈ ts, t.WellFormed n) :
    (Ty.ofAlternatives ts).WellFormed n := by
  refine .sum (fun hnil => ?_) (pairwise_foldl_distinct .nil) fun t ht => h t (mem_distinct.mp ht)
  obtain ⟨t, ht⟩ := List.exists_mem_of_ne_nil ts hne
  have hmem := mem_distinct.mpr ht
  rw [hnil] at hmem
  cases hmem

theorem optional (h : base.WellFormed n) : (Ty.optional base).WellFormed n :=
  ofAlternatives (List.cons_ne_nil _ _)
    (List.forall_mem_cons.mpr ⟨h, List.forall_mem_singleton.mpr (.basic .void)⟩)

theorem optionalBase (h : t.WellFormed n) (hbase : t.optionalBase? = some base) :
    base.WellFormed n := by
  rw [eq_sum_of_optionalBase? hbase] at h
  exact h.alternatives base List.mem_cons_self

end WellFormed

end Ty

/-! ## The table of structs -/

namespace TypeTable

/-- The number of structs. -/
abbrev size (types : TypeTable) : Nat := types.structs.length

theorem size_declare (types : TypeTable) (name : String) :
    (types.declare name).size = types.size + 1 := by
  simp [size, declare]

mutual

/-- A type as it is written in messages, unless it mentions a struct that is not in the table. -/
def describe? (table : TypeTable) : Ty → Option String
  | .basic b => some b.name
  | .struct id => table.structs[id.index]?.map (·.name)
  | .array element => do return "[" ++ (← describe? table element) ++ "]"
  | .function params result => do
    let params ← describeAll? table params
    return "(" ++ ",".intercalate params ++ ")->" ++ (← describe? table result)
  | .sum [base, .basic .void] => do return (← describe? table base) ++ "?"
  | .sum alternatives => do
    return "<" ++ ",".intercalate (← describeAll? table alternatives) ++ ">"

/-- Each type of a list as it is written in messages, unless one mentions a struct that is not in
the table. -/
def describeAll? (table : TypeTable) : List Ty → Option (List String)
  | [] => some []
  | t :: ts => do return (← describe? table t) :: (← describeAll? table ts)

end

variable {types : TypeTable} {t : Ty}

theorem describeAll?_eq {ts : List Ty} (h : ∀ t ∈ ts, types.describe? t = some (types.describe t)) :
    types.describeAll? ts = some (types.describeAll ts) := by
  induction ts with
  | nil => rfl
  | cons t ts ih =>
    obtain ⟨ht, hts⟩ := List.forall_mem_cons.mp h
    simp [describeAll?, describeAll, ht, ih hts]

/-- **Describing a well-formed type never leaves the table.** -/
theorem describe?_eq (h : t.WellFormed types.size) :
    types.describe? t = some (types.describe t) := by
  induction h with
  | basic b => rfl
  | struct h => simp [describe?, describe, get, h]
  | array _ ih => simp [describe?, describe, ih]
  | function _ _ hparams hresult => simp [describe?, describe, describeAll?_eq hparams, hresult]
  | @sum ts _ _ _ ih =>
    by_cases hoptional : ∃ base, ts = [base, .void]
    · obtain ⟨base, rfl⟩ := hoptional
      simp [describe?, describe, ih base]
    · have hplain : ∀ base, ts = [base, .void] → False := fun base hts => hoptional ⟨base, hts⟩
      rw [describe?.eq_6 _ _ hplain, describe.eq_6 _ _ hplain, describeAll?_eq ih]
      rfl

/-- The text describes a well-formed type, by looking up structs of the table only. -/
def Writes (types : TypeTable) (text : String) : Prop :=
  ∃ t : Ty, t.WellFormed types.size ∧ types.describe? t = some text

theorem writes_describe (h : t.WellFormed types.size) : types.Writes (types.describe t) :=
  ⟨t, h, describe?_eq h⟩

theorem writes_name {id : StructId} (h : id.index < types.size) :
    types.Writes (types.get id).name :=
  writes_describe (t := .struct id) (.struct h)

end TypeTable

/-- Every type that the cause speaks of is a well-formed one, described within the table. -/
def Cause.DescribedBy (types : TypeTable) : Cause → Prop
  | .notAssignable a b | .operandsDiffer a b => types.Writes a ∧ types.Writes b
  | .wrongClass _ t | .unknownField _ t | .notCallable t => types.Writes t
  | .recursiveStruct name | .repeatedField name _ => types.Writes name
  | _ => True

/-! ## What holds types -/

/-- The type of what a name stands for; a name for a type has that one. -/
def Entity.ty : Entity → Ty
  | .variable v => v.type
  | .function f => f.type
  | .type t => t

/-- The types of the library mention no struct, and their sums are well formed. -/
def Library.WellFormed (lib : Library) : Prop := ∀ e ∈ lib.entries, e.2.ty.WellFormed 0

namespace Typed

/-- The types of all nodes of the expression are well formed. -/
abbrev Expr.WellFormed (n : Nat) (e : Expr) : Prop := e.Everywhere fun c => c.type.WellFormed n

/-- The types of the variables, of the function and of the struct that the statement declares are
well formed. -/
def Stmt.DeclaresWellFormed (n : Nat) (s : Stmt) : Prop :=
  (∀ x ∈ s.declared?, x.ty.WellFormed n) ∧ ∀ v ∈ s.locals, v.type.WellFormed n

/-- All types in the statement are well formed. -/
abbrev Stmt.WellFormed (n : Nat) (s : Stmt) : Prop :=
  s.Everywhere (fun c => c.type.WellFormed n) (·.DeclaresWellFormed n)

variable {n m : Nat}

theorem Expr.WellFormed.mono (hnm : n ≤ m) {e : Expr} (h : e.WellFormed n) : e.WellFormed m :=
  h.imp fun _ => Ty.WellFormed.mono hnm

/-- Most statements declare nothing. -/
theorem Stmt.declaresWellFormed_of_none {s : Stmt} (hdeclared : s.declared? = none)
    (hlocals : s.locals = []) : s.DeclaresWellFormed n := by
  refine ⟨fun x hx => ?_, ?_⟩
  · rw [hdeclared] at hx
    cases hx
  · rw [hlocals]
    exact List.forall_mem_nil _

theorem Stmt.WellFormed.mono (hnm : n ≤ m) {s : Stmt} (h : s.WellFormed n) : s.WellFormed m :=
  h.imp (fun _ => Ty.WellFormed.mono hnm) fun _ hs =>
    ⟨fun x hx => (hs.1 x hx).mono hnm, fun v hv => (hs.2 v hv).mono hnm⟩

end Typed

/-- The fields of all structs are of well-formed types. -/
def TypeTable.WellFormed (types : TypeTable) : Prop :=
  ∀ d ∈ types.structs, ∀ f ∈ d.fields, f.type.WellFormed types.size

/-- All types in the program are well formed: those of the fields of its structs, and at every
place those of the nodes and of what is declared. -/
structure Typed.Program.WellFormed (p : Typed.Program) : Prop where
  types : p.types.WellFormed
  declared : ∀ d t, p.At d t → t.DeclaresWellFormed p.types.size
  nodes : ∀ d t, p.At d t → ∀ e ∈ t.exprs, e.WellFormed p.types.size

namespace Check

/-- All types in the environment are well formed: those of the names in scope, of the functions
around, and of the fields of structs. -/
structure Env.WellFormed (env : Env) : Prop where
  entities : ∀ x ∈ env.scopes.entities, x.ty.WellFormed env.types.size
  functions : ∀ scope ∈ env.scopes.toList, ∀ f ∈ scope.function, f.type.WellFormed env.types.size
  types : env.types.WellFormed

namespace Env.WellFormed

variable {env : Env} {lib : Library}

theorem initial (hlib : lib.WellFormed) : (State.initial lib).env.WellFormed where
  entities := by
    intro x hx
    obtain ⟨name, hname⟩ := Library.mem_entities_scopes.mp hx
    exact hlib _ hname
  functions := by
    have hscopes : lib.scopes = ⟨⟨lib.entries.reverse, false, none⟩, []⟩ :=
      Agrees.scopes_initial lib
    intro scope hscope f hf
    rw [State.initial, hscopes] at hscope
    rw [List.mem_singleton.mp hscope] at hf
    cases hf
  types := List.forall_mem_nil _

/-- The fields of a struct; a number that is not in the table has none. -/
theorem field (h : env.WellFormed) (id : StructId) :
    ∀ f ∈ (env.types.get id).fields, f.type.WellFormed env.types.size := by
  unfold TypeTable.get
  rcases Nat.lt_or_ge id.index env.types.structs.length with hlt | hge
  · rw [List.getD_eq_getElem _ _ hlt]
    exact h.types _ (List.getElem_mem hlt)
  · rw [List.getD_eq_default _ _ hge]
    exact List.forall_mem_nil _

end Env.WellFormed

/-! ## Sound results -/

variable {α β : Type} {env : Env} {p q : Position}

/-- The result is a value with the property, or a fault in which only well-formed types are
described. -/
def Sound (env : Env) (x : Except Diagnostic α) (Q : α → Prop) : Prop :=
  match x with
  | .ok a => Q a
  | .error d => d.cause.DescribedBy env.types

namespace Sound

variable {x : Except Diagnostic α} {f : α → Except Diagnostic β} {P Q : α → Prop} {R : β → Prop}

theorem ok {a : α} (h : Q a) : Sound env (.ok a) Q := h

theorem error {d : Diagnostic} (h : d.cause.DescribedBy env.types) :
    Sound env (.error d : Except Diagnostic α) Q := h

theorem bind (hx : Sound env x P) (hf : ∀ a, P a → Sound env (f a) R) :
    Sound env (x >>= f) R := by
  cases x with
  | ok a => exact hf a hx
  | error d => exact hx

theorem ite {b : Prop} [Decidable b] {y : Except Diagnostic α} (hx : Sound env x Q)
    (hy : Sound env y Q) : Sound env (if b then x else y) Q := by
  split_ifs
  · exact hx
  · exact hy

theorem value {a : α} (h : Sound env x Q) (hx : x = .ok a) : Q a := by
  rw [hx] at h
  exact h

end Sound

/-! ## Demands -/

open Syntax
open TypeTable (writes_describe writes_name)

section

variable {t u : Ty}

theorem expectAssignable_sound {e : Typed.Expr} (he : e.type.WellFormed env.types.size)
    (ht : t.WellFormed env.types.size) :
    Sound env (env.expectAssignable e t p) fun _ => True :=
  .ite (.ok trivial) (.error ⟨writes_describe ht, writes_describe he⟩)

theorem expectClass_sound {inClass : Ty → Bool} {expected : String}
    (ht : t.WellFormed env.types.size) :
    Sound env (env.expectClass t inClass expected p) fun _ => True :=
  .ite (.ok trivial) (.error (writes_describe ht))

theorem expectSame_sound (ht : t.WellFormed env.types.size) (hu : u.WellFormed env.types.size) :
    Sound env (env.expectSame t u p) fun _ => True :=
  .ite (.ok trivial) (.error ⟨writes_describe ht, writes_describe hu⟩)

theorem expectArity_sound {params : List Ty} {args : List Expr} :
    Sound env (expectArity params args p) fun _ => True :=
  .ite (.ok trivial) (.error trivial)

theorem expectArray_sound (ht : t.WellFormed env.types.size) :
    Sound env (expectArray env t p) (·.WellFormed env.types.size) := by
  cases t with
  | array element => exact .ok ht.element
  | _ => exact .error (writes_describe ht)

theorem expectFunction_sound (ht : t.WellFormed env.types.size) :
    Sound env (expectFunction env t p) fun s =>
      (∀ u ∈ s.1, u.WellFormed env.types.size) ∧ s.2.WellFormed env.types.size := by
  cases t with
  | function params result => exact .ok ht.signature
  | _ => exact .error (writes_describe ht)

theorem expectStruct_sound (ht : t.WellFormed env.types.size) :
    Sound env (expectStruct env t p) (·.index < env.types.size) := by
  cases t with
  | struct id => exact .ok ht.index_lt
  | _ => exact .error (writes_describe ht)

/-! ## Types of operators -/

theorem binaryType_sound {op : BinaryOp} {l r : Typed.Expr} (hl : l.type.WellFormed env.types.size)
    (hr : r.type.WellFormed env.types.size) :
    Sound env (binaryType env op l r p q) (·.WellFormed env.types.size) := by
  unfold binaryType
  cases op with
  | coalesce =>
    dsimp only
    split
    · rename_i base hbase
      have hwell := hl.optionalBase hbase
      exact (expectAssignable_sound hr hwell).bind fun _ _ => .ok hwell
    · exact .error (writes_describe hl)
  | or | and =>
    exact (expectClass_sound hl).bind fun _ _ => (expectClass_sound hr).bind fun _ _ =>
      .ok (.basic .bool)
  | bitOr | bitXor | bitAnd | shiftLeft | shiftRight =>
    exact (expectClass_sound hl).bind fun _ _ => (expectClass_sound hr).bind fun _ _ =>
      .ok (.basic .int)
  | less | lessEquals | greaterEquals | greater =>
    exact (expectClass_sound hl).bind fun _ _ => (expectSame_sound hl hr).bind fun _ _ =>
      .ok (.basic .bool)
  | equals | notEquals => exact (expectSame_sound hl hr).bind fun _ _ => .ok (.basic .bool)
  | add | subtract | multiply | divide | remainder | power =>
    exact (expectClass_sound hl).bind fun _ _ => (expectSame_sound hl hr).bind fun _ _ => .ok hl

theorem unaryType_sound {op : UnaryOp} (ht : t.WellFormed env.types.size) :
    Sound env (unaryType env op t p) (·.WellFormed env.types.size) := by
  unfold unaryType
  cases op with
  | negate => exact (expectClass_sound ht).bind fun _ _ => .ok ht
  | not => exact (expectClass_sound ht).bind fun _ _ => .ok (.basic .bool)
  | length => exact (expectClass_sound ht).bind fun _ _ => .ok (.basic .int)
  | some => exact .ok ht.optional

theorem receiver?_index_lt {chained : Bool} (ht : t.WellFormed env.types.size)
    {id : StructId} (h : receiver? chained t = some id) : id.index < env.types.size := by
  unfold receiver? at h
  split at h
  · rename_i id' hreceived
    cases h
    cases chained with
    | false =>
      cases hreceived
      exact ht.index_lt
    | true => exact (ht.optionalBase hreceived).index_lt
  · cases h

theorem elementType_wellFormed {n : Nat} {es : List Typed.Expr} (hne : es ≠ [])
    (h : ∀ e ∈ es, e.type.WellFormed n) : (elementType es).WellFormed n := by
  have hsum : (Ty.ofAlternatives (es.map (·.type))).WellFormed n :=
    .ofAlternatives (by simpa using hne) (List.forall_mem_map.mpr h)
  unfold elementType
  split
  · rename_i t heq
    rw [heq] at hsum
    exact hsum.alternatives t List.mem_cons_self
  · exact hsum

end

/-! ## Names -/

section

variable (henv : env.WellFormed) {name : String}

include henv

theorem lookup_sound :
    Sound env (env.scopes.lookup name p) (·.ty.WellFormed env.types.size) := by
  unfold Scopes.lookup
  split
  · rename_i x hx
    exact .ok (henv.entities x (Scopes.mem_entities_of_find? hx))
  · exact .error trivial

theorem symbol_sound : Sound env (symbol env name p) (·.WellFormed env.types.size) := by
  refine (lookup_sound henv).bind fun x hx => ?_
  cases x with
  | «variable» v => exact .ok (.node hx (List.forall_mem_nil _))
  | function f => exact .ok (.node hx (List.forall_mem_nil _))
  | type t => exact .error trivial

theorem constructed?_sound (c : Expr) :
    Sound env (constructed? env c) (∀ made ∈ ·, made.1.WellFormed env.types.size) := by
  cases c with
  | symbol name span =>
    refine (lookup_sound henv).bind fun x hx => ?_
    cases x with
    | type t =>
      refine .ok fun made hmade => ?_
      cases hmade
      exact hx
    | «variable» | function => exact .ok fun _ hmade => absurd hmade (by simp)
  | _ => exact .ok fun _ hmade => absurd hmade (by simp)

theorem member_sound {object : Typed.Expr} {field : String} {chained : Bool}
    (ho : object.WellFormed env.types.size) :
    Sound env (member env object field chained p q) (·.WellFormed env.types.size) := by
  unfold member
  split
  · exact .error (writes_describe ho.here)
  · rename_i id hid
    split
    · exact .error (writes_name (receiver?_index_lt ho.here hid))
    · rename_i f hf
      have hwell := henv.field id f (List.mem_of_find?_eq_some hf)
      refine .ok (.node ?_ (List.forall_mem_singleton.mpr ho))
      cases chained with
      | false => exact hwell
      | true => exact hwell.optional

end

/-! ## Annotations -/

mutual

/-- **A formed annotation denotes a well-formed type.** -/
theorem resolve_sound (henv : env.WellFormed) : ∀ {t : TypeExpr}, t.Formed →
    Sound env (resolve env t) (·.WellFormed env.types.size)
  | .named name span, _ => by
    rw [resolve]
    refine (lookup_sound henv).bind fun x hx => ?_
    cases x with
    | type t => exact .ok hx
    | «variable» | function => exact .error trivial
  | .array t span, h => by
    cases h with
    | array h =>
      rw [resolve]
      exact (resolve_sound henv h).bind fun _ hu => .ok (.array hu)
  | .optional t span, h => by
    cases h with
    | optional h =>
      rw [resolve]
      exact (resolve_sound henv h).bind fun _ hu => .ok hu.optional
  | .sum ts span, h => by
    cases h with
    | sum hne h =>
      rw [resolve]
      refine (resolveAll_sound henv h).bind fun us hus => .ok (.ofAlternatives ?_ hus.2)
      exact fun hnil => hne (List.eq_nil_of_length_eq_zero (by rw [← hus.1, hnil, List.length_nil]))
  | .function ts r span, h => by
    cases h with
    | function hparams hresult =>
      rw [resolve]
      exact (resolveAll_sound henv hparams).bind fun _ hus =>
        (resolve_sound henv hresult).bind fun _ hu => .ok (.function hus.2 hu)

theorem resolveAll_sound (henv : env.WellFormed) : ∀ {ts : List TypeExpr}, (∀ t ∈ ts, t.Formed) →
    Sound env (resolveAll env ts) fun us =>
      us.length = ts.length ∧ ∀ u ∈ us, u.WellFormed env.types.size
  | [], _ => by
    rw [resolveAll]
    exact .ok ⟨rfl, List.forall_mem_nil _⟩
  | t :: ts, h => by
    obtain ⟨ht, hts⟩ := List.forall_mem_cons.mp h
    rw [resolveAll]
    refine (resolve_sound henv ht).bind fun u hu =>
      (resolveAll_sound henv hts).bind fun us hus => ?_
    exact .ok ⟨congrArg (· + 1) hus.1, List.forall_mem_cons.mpr ⟨hu, hus.2⟩⟩

end

/-! ## Expressions -/

mutual

/-- **All nodes of a formed expression are of well-formed types.** -/
theorem expr_sound (henv : env.WellFormed) : ∀ {a : Expr}, a.Formed →
    Sound env (expr env a) (·.WellFormed env.types.size)
  | .int _ _, _ | .float _ _, _ | .string _ _, _ | .bool _ _, _ => by
    rw [expr]
    exact .ok (.node (.basic _) (List.forall_mem_nil _))
  | .symbol name span, _ => by
    rw [expr]
    exact symbol_sound henv
  | .binary op l r span, h => by
    cases h with
    | binary hl hr =>
      rw [expr]
      refine (expr_sound henv hl).bind fun left hleft =>
        (expr_sound henv hr).bind fun right hright =>
          (binaryType_sound hleft.here hright.here).bind fun t ht => .ok (.node ht ?_)
      exact List.forall_mem_cons.mpr ⟨hleft, List.forall_mem_singleton.mpr hright⟩
  | .unary op a span, h => by
    cases h with
    | unary h =>
      rw [expr]
      refine (expr_sound henv h).bind fun operand ho =>
        (unaryType_sound ho.here).bind fun t ht => .ok (.node ht ?_)
      exact List.forall_mem_singleton.mpr ho
  | .conditional t y n span, h => by
    cases h with
    | conditional ht hy hn =>
      rw [expr]
      refine (expr_sound henv ht).bind fun test htest =>
        (expectClass_sound htest.here).bind fun _ _ =>
          (expr_sound henv hy).bind fun yes hyes => (expr_sound henv hn).bind fun no hno =>
            (expectSame_sound hyes.here hno.here).bind fun _ _ => .ok (.node hyes.here ?_)
      exact List.forall_mem_cons.mpr
        ⟨htest, List.forall_mem_cons.mpr ⟨hyes, List.forall_mem_singleton.mpr hno⟩⟩
  | .array as span, h => by
    cases h with
    | array hne h =>
      rw [expr]
      refine (exprs_sound henv h).bind fun es hes => .ok (.node (.array ?_) hes.2)
      refine elementType_wellFormed (fun hnil => hne ?_) fun e he => (hes.2 e he).here
      exact List.eq_nil_of_length_eq_zero (by rw [← hes.1, hnil, List.length_nil])
  | .emptyArray t span, h => by
    cases h with
    | emptyArray h =>
      rw [expr]
      exact (resolve_sound henv h).bind fun _ hu => .ok (.node (.array hu) (List.forall_mem_nil _))
  | .absent t span, h => by
    cases h with
    | absent h =>
      rw [expr]
      exact (resolve_sound henv h).bind fun _ hu => .ok (.node hu.optional (List.forall_mem_nil _))
  | .subscript a i span, h => by
    cases h with
    | subscript ha hi =>
      rw [expr]
      refine (expr_sound henv ha).bind fun items hitems =>
        (expectArray_sound hitems.here).bind fun element helement =>
          (expr_sound henv hi).bind fun index hindex =>
            (expectClass_sound hindex.here).bind fun _ _ => .ok (.node helement ?_)
      exact List.forall_mem_cons.mpr ⟨hitems, List.forall_mem_singleton.mpr hindex⟩
  | .member o field chained span, h => by
    cases h with
    | member h =>
      rw [expr]
      exact (expr_sound henv h).bind fun object ho => member_sound henv ho
  | .call c as span, h => by
    cases h with
    | call hc has =>
      rw [expr]
      refine (constructed?_sound henv c).bind fun made hmade => ?_
      cases made with
      | some made =>
        refine (expectStruct_sound (hmade made rfl)).bind fun id hid =>
          expectArity_sound.bind fun _ _ => ?_
        have hparams := List.forall_mem_map.mpr (henv.field id)
        exact (arguments_sound henv hparams has).bind fun args hargs =>
          .ok (.node (.struct hid) hargs)
      | none =>
        refine (expr_sound henv hc).bind fun callee hcallee =>
          (expectFunction_sound hcallee.here).bind fun s hs => expectArity_sound.bind fun _ _ => ?_
        refine (arguments_sound henv hs.1 has).bind fun args hargs => .ok (.node hs.2 ?_)
        exact List.forall_mem_cons.mpr ⟨hcallee, hargs⟩

theorem exprs_sound (henv : env.WellFormed) : ∀ {as : List Expr}, (∀ a ∈ as, a.Formed) →
    Sound env (exprs env as) fun es =>
      es.length = as.length ∧ ∀ e ∈ es, e.WellFormed env.types.size
  | [], _ => by
    rw [exprs]
    exact .ok ⟨rfl, List.forall_mem_nil _⟩
  | a :: as, h => by
    obtain ⟨ha, has⟩ := List.forall_mem_cons.mp h
    rw [exprs]
    refine (expr_sound henv ha).bind fun e he => (exprs_sound henv has).bind fun es hes => ?_
    exact .ok ⟨congrArg (· + 1) hes.1, List.forall_mem_cons.mpr ⟨he, hes.2⟩⟩

theorem arguments_sound (henv : env.WellFormed) : ∀ {params : List Ty} {as : List Expr},
    (∀ t ∈ params, t.WellFormed env.types.size) → (∀ a ∈ as, a.Formed) →
    Sound env (arguments env params as) (∀ e ∈ ·, e.WellFormed env.types.size)
  | _, [], _, _ | [], _ :: _, _, _ => by
    rw [arguments]
    exact .ok (List.forall_mem_nil _)
  | t :: ts, a :: as, hparams, h => by
    obtain ⟨ht, hts⟩ := List.forall_mem_cons.mp hparams
    obtain ⟨ha, has⟩ := List.forall_mem_cons.mp h
    rw [arguments]
    refine (expr_sound henv ha).bind fun e he => (expectAssignable_sound he.here ht).bind fun _ _ =>
      (arguments_sound henv hts has).bind fun es hes => .ok ?_
    exact List.forall_mem_cons.mpr ⟨he, hes⟩

end

end Check

/-! ## Simplification -/

namespace Typed

theorem Expr.type_rebuild (e : Expr) : e.rebuild.type = e.type := by
  cases e <;> rfl

/-- Simplification makes no types but those of literals. -/
theorem Expr.WellFormed.simplify {n : Nat} {e : Expr} (h : e.WellFormed n) :
    e.simplify.WellFormed n := by
  refine Expr.everywhere_simplify (fun c hc => ?_) (fun l => ?_) (fun _ _ hc => hc) h
  · rw [Expr.type_rebuild]
    exact hc.here
  · cases l <;> exact .basic _

theorem Program.types_simplifyTimes (p : Program) (n : Nat) :
    (p.simplifyTimes n).types = p.types := by
  induction n with
  | zero => rfl
  | succ n ih => exact ih

/-- **Simplification keeps programs well formed**, however often it is done. -/
theorem Program.wellFormed_simplifyTimes {p : Program} (h : p.WellFormed) (n : Nat) :
    (p.simplifyTimes n).WellFormed := by
  have htypes := p.types_simplifyTimes n
  refine ⟨?_, ?_, ?_⟩ <;> rw [htypes]
  · exact h.types
  · refine forall_at_simplifyTimes (fun {d d' t} _ ht => ?_) h.declared n
    rwa [Stmt.DeclaresWellFormed, Stmt.declared?_rebuild, Stmt.locals_rebuild]
  · refine forall_at_simplifyTimes (fun {d d' t} _ ht => ?_) h.nodes n
    rw [Stmt.exprs_rebuild]
    exact List.forall_mem_map.mpr fun e he => (ht e he).simplify

end Typed

end Quill
