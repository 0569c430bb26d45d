import Quill.Proofs.Derivation
import Quill.Proofs.Site

/-!
# The names that checking binds

While a list of statements is checked, the scope of the list gets one name for each declaration in
it, in order, and each is new there; scopes that are entered on the way are left again, and the
table of structs only grows. `Binds types s xs s'` says this of two states: the entities `xs` were
bound between them. The name of a struct is in the table of structs, so that the names of entities
are read off with a table `types` that has all structs declared by then.

Results:
* `parameters_binds`: parameters are bound under their names.
* **`Checks.binds`**: checking a piece binds what the piece declares, and nothing else.
-/

namespace Quill

/-! ## Scopes with several names more -/

namespace Scopes

variable {s : Scopes} {bs cs : List (String × Entity)} {name : String}

/-- The scopes with some names bound in the innermost one, one after the other. -/
def bindAll (s : Scopes) (bs : List (String × Entity)) : Scopes :=
  bs.foldl (fun s b => s.define b.1 b.2) s

theorem bindAll_append : s.bindAll (bs ++ cs) = (s.bindAll bs).bindAll cs := List.foldl_append

theorem bindAll_eq :
    s.bindAll bs = ⟨⟨bs.reverse ++ s.inner.names, s.inner.inLoop, s.inner.function⟩, s.outer⟩ := by
  induction bs generalizing s with
  | nil => rfl
  | cons b bs ih =>
    rw [bindAll, List.foldl_cons, ← bindAll, ih, List.reverse_cons, List.append_assoc]
    rfl

/-- A scope that is left takes its names with it. -/
theorem pop_bindAll_push (kind : ScopeKind) : ((s.push kind).bindAll bs).pop = s := by
  rw [bindAll_eq]
  rfl

theorem find?_bindAll : (s.bindAll bs).find? name = (bs.reverse.lookup name).or (s.find? name) := by
  rw [bindAll_eq]
  simp only [find?, toList, List.findSome?_cons, Scope.find?, List.lookup_append]
  cases bs.reverse.lookup name <;> rfl

theorem find?_push (kind : ScopeKind) : (s.push kind).find? name = s.find? name := by
  cases kind <;> rfl

theorem lookup_eq_none_iff_not_mem : bs.lookup name = none ↔ name ∉ bs.map Prod.fst := by
  simp only [List.lookup_eq_none_iff, bne_iff_ne, List.mem_map, not_exists, not_and]
  exact forall₂_congr fun _ _ => ne_comm

/-- The names are distinct, and the innermost scope binds none of them. -/
def New (s : Scopes) (names : List String) : Prop :=
  names.Nodup ∧ ∀ name ∈ names, s.inner.find? name = none

theorem find?_inner_bindAll_eq_none :
    (s.bindAll bs).inner.find? name = none ↔
      name ∉ bs.map Prod.fst ∧ s.inner.find? name = none := by
  rw [bindAll_eq, Scope.find?, List.lookup_append, Option.or_eq_none_iff,
    lookup_eq_none_iff_not_mem, List.map_reverse, List.mem_reverse]
  rfl

theorem New.nil (s : Scopes) : s.New [] := ⟨.nil, nofun⟩

theorem New.append (hb : s.New (bs.map Prod.fst)) (hc : (s.bindAll bs).New (cs.map Prod.fst)) :
    s.New ((bs ++ cs).map Prod.fst) := by
  simp only [New, find?_inner_bindAll_eq_none] at hc
  rw [List.map_append]
  refine ⟨hb.1.append hc.1 fun n hn hn' => (hc.2 n hn').1 hn, fun n hn => ?_⟩
  rcases List.mem_append.mp hn with hn | hn
  · exact hb.2 n hn
  · exact (hc.2 n hn).2

end Scopes

/-! ## Tables that grow -/

/-- A struct that is declared stays what it is when others follow. -/
theorem TypeTable.get_of_isPrefix {a b : TypeTable} {id : StructId} (h : a.structs <+: b.structs)
    (hid : id.index < a.structs.length) : b.get id = a.get id := by
  obtain ⟨rest, hrest⟩ := h
  simp only [get, List.getD_eq_getElem?_getD, ← hrest, List.getElem?_append_left hid]

/-- The name under which an entity is declared. -/
def Entity.nameIn (types : TypeTable) : Entity → String
  | .variable v => v.name
  | .function f => f.name
  | .type t => types.describe t

/-- Entities with their names. -/
def bindings (types : TypeTable) (xs : List Entity) : List (String × Entity) :=
  xs.map fun x => (x.nameIn types, x)

namespace Check

open Syntax Checker

variable {types : TypeTable} {s s₁ s' : State} {xs ys : List Entity}

/-! ## What is bound between two states -/

theorem nextId_lt_introduceStruct (s : State) (name : String) (fs : List Field) :
    s.env.types.nextId.index < (s.introduceStruct name fs).env.types.structs.length := by
  simp [State.introduceStruct, TypeTable.nextId]

/-- A struct has the name and the fields in the table that it is declared with. -/
theorem get_of_introduceStruct {name : String} {fs : List Field}
    (htypes : (s.introduceStruct name fs).env.types.structs <+: types.structs) :
    types.get s.env.types.nextId = ⟨name, fs⟩ := by
  rw [TypeTable.get_of_isPrefix htypes (nextId_lt_introduceStruct s name fs)]
  simp [State.introduceStruct, TypeTable.get, TypeTable.nextId]

/-- From `s` to `s'`, the entities were bound in the innermost scope, each under a name that is new
there, and structs were declared, those among the entities included. -/
structure Binds (types : TypeTable) (s : State) (xs : List Entity) (s' : State) : Prop where
  scopes : s'.env.scopes = s.env.scopes.bindAll (bindings types xs)
  new : s.env.scopes.New ((bindings types xs).map Prod.fst)
  grows : s.env.types.structs <+: s'.env.types.structs
  known : ∀ id, .type (.struct id) ∈ xs → id.index < s'.env.types.structs.length

namespace Binds

theorem refl (types : TypeTable) (s : State) : Binds types s [] s :=
  ⟨rfl, .nil _, List.prefix_rfl, nofun⟩

theorem trans (h : Binds types s xs s₁) (h' : Binds types s₁ ys s') :
    Binds types s (xs ++ ys) s' where
  scopes := by rw [bindings, List.map_append, Scopes.bindAll_append, h'.scopes, h.scopes]; rfl
  new := by
    rw [bindings, List.map_append]
    exact h.new.append (h.scopes ▸ h'.new)
  grows := h.grows.trans h'.grows
  known id hid := by
    rcases List.mem_append.mp hid with hid | hid
    · exact (h.known id hid).trans_le h'.grows.length_le
    · exact h'.known id hid

/-- Of a scope that is entered and left, the structs remain. -/
theorem leave {kind : ScopeKind} (h : Binds types (s.enter kind) xs s') :
    Binds types s [] s'.leave where
  scopes := by
    show s'.env.scopes.pop = _
    rw [h.scopes]
    exact Scopes.pop_bindAll_push kind
  new := .nil _
  grows := h.grows
  known := nofun

theorem introduce {name : String} {x : Entity} (hname : x.nameIn types = name)
    (hx : ∀ t, x ≠ .type t) (hnew : s.env.scopes.inner.find? name = none) :
    Binds types s [x] (s.introduce name x) := by
  subst hname
  refine ⟨rfl, ⟨List.nodup_singleton _, ?_⟩, List.prefix_rfl, fun id hid => ?_⟩
  · rintro _ (_ | ⟨_, ⟨⟩⟩)
    exact hnew
  · exact absurd (List.mem_singleton.mp hid).symm (hx _)

theorem var {name : String} {v : Variable} (hname : v.name = name)
    (hnew : s.env.scopes.inner.find? name = none) :
    Binds types s [.variable v] (s.introduce name (.variable v)) := .introduce hname (by simp) hnew

theorem function {name : String} {f : Function} (hname : f.name = name)
    (hnew : s.env.scopes.inner.find? name = none) :
    Binds types s [.function f] (s.introduce name (.function f)) := .introduce hname (by simp) hnew

theorem struct {name : String} {fs : List Field}
    (hnew : s.env.scopes.inner.find? name = none)
    (htypes : (s.introduceStruct name fs).env.types.structs <+: types.structs) :
    Binds types s [.type (.struct s.env.types.nextId)] (s.introduceStruct name fs) := by
  have hname : types.describe (.struct s.env.types.nextId) = name := by
    rw [TypeTable.describe, get_of_introduceStruct htypes]
  refine ⟨?_, ⟨List.nodup_singleton _, ?_⟩, List.prefix_append _ _, ?_⟩
  · simp only [bindings, List.map_singleton, Entity.nameIn, hname]
    rfl
  · simpa [bindings, Entity.nameIn, hname] using hnew
  · intro id hid
    simp only [List.mem_singleton, Entity.type.injEq, Ty.struct.injEq] at hid
    rw [hid]
    exact nextId_lt_introduceStruct s name fs

end Binds

/-- Parameters are bound one after the other. -/
theorem parameters_binds : ∀ {bs : List Binding} {ts : List Ty} {s s' : State} {vs : List Variable},
    parameters bs ts s = .ok vs s' → Binds types s (vs.map .variable) s'
  | b :: bs, t :: ts, s, s', vs, h => by
    simp only [parameters, run_bind_ok, run_pure_ok] at h
    obtain ⟨v, _, hv, vs, _, hvs, rfl, rfl⟩ := h
    obtain ⟨rfl, hnew, rfl⟩ := declareVariable_eq hv
    exact (Binds.var rfl hnew).trans (parameters_binds hvs)
  | [], _, s, s', vs, h | _ :: _, [], s, s', vs, h => by
    simp only [parameters, run_pure_ok] at h
    obtain ⟨rfl, rfl⟩ := h
    exact .refl types s

/-- What a piece declares in the scope where it stands. -/
def Piece.declared : Piece → List Entity
  | .stmt _ t => [t].filterMap Typed.Stmt.declared?
  | .stmts _ ts => ts.filterMap Typed.Stmt.declared?
  | .alternative _ _ => []

theorem isBranch_typedBranch (e : Typed.Expr) (yes : List Typed.Stmt)
    (no : Option (List Typed.Stmt)) : (typedBranch e yes no).isBranch = true := by
  cases no <;> rfl

theorem declared?_typedBranch (e : Typed.Expr) (yes : List Typed.Stmt)
    (no : Option (List Typed.Stmt)) : (typedBranch e yes no).declared? = none :=
  Typed.Stmt.declared?_of_isBranch (isBranch_typedBranch e yes no)

/-- **Checking a piece binds what the piece declares, and nothing else.** By induction on the rules;
what follows a part is looked at before the part, since the table must have the structs that the
part declares. -/
theorem Checks.binds {o : Piece} (h : Checks s o s')
    (htypes : s'.env.types.structs <+: types.structs) : Binds types s o.declared s' := by
  induction h with
  | declare _ hv hnew => exact .var (by rw [hv]) hnew
  | struct hnew _ _ => exact .struct hnew htypes
  | function _ hf hnew hparams _ ih =>
    have hbody := (parameters_binds hparams).trans (ih htypes)
    exact (Binds.function (congrArg Function.name hf) hnew).trans hbody.leave
  | branch _ _ _ _ hyes hno =>
    rw [Piece.declared, List.filterMap_cons_none (declared?_typedBranch _ _ _)]
    have hno := hno htypes
    exact (hyes (hno.grows.trans htypes)).leave.trans hno
  | whileLoop _ _ _ ih | repeatLoop _ _ _ ih | otherwise _ ih => exact (ih htypes).leave
  | rangeLoop _ _ _ _ hv _ ih | eachLoop _ _ hv _ ih =>
    exact ((Binds.var (congrArg Variable.name hv) rfl).trans (ih htypes)).leave
  | elseIf hbranch ih =>
    have hbinds := ih htypes
    cases hbranch
    rwa [Piece.declared, List.filterMap_cons_none (declared?_typedBranch _ _ _)] at hbinds
  | cons _ _ hhead htail =>
    have htail := htail htypes
    have hhead := hhead (htail.grows.trans htypes)
    rw [Piece.declared, ← List.singleton_append, List.filterMap_append]
    exact hhead.trans htail
  | _ => exact .refl types _

end Check

end Quill
