import Quill.Proofs.Scoping
import Quill.Proofs.Typing

/-!
# No struct contains itself

A struct must not be the type of one of its own fields; nothing else is tested when it is declared.
This is enough: a name for a struct is bound only when the struct is numbered, so that the fields of
a struct find none but earlier structs and itself. `TypeTable.Holds i j` says that a field of the
struct `i` is of the struct `j`. In a checked program it goes from higher to lower numbers, and no
chain of fields leads back to where it started.

`Program.structIds` walks over a program, into every body, and lists the numbers of the structs that
are declared. Checking hands them out one after the other.

Results:
* `State.Layered`: what holds of the table and of the names for structs, kept by every step.
* `State.Layered.index_lt_of_fields`: a struct may only hold structs that were there before.
* `Checks.structIds`: the numbers of structs are consecutive.
* **`Check.program_layered`**: the structs of a checked program.
-/

namespace Quill

/-! ## What scopes bind -/

namespace Scopes

/-- Everything that a name of an open scope stands for. -/
def entities (s : Scopes) : List Entity := s.toList.flatMap fun t => t.names.map (·.2)

variable {s : Scopes} {x y : Entity} {name : String}

theorem mem_entities_of_find? (h : s.find? name = some x) : x ∈ s.entities := by
  obtain ⟨t, ht, hx⟩ := List.exists_of_findSome?_eq_some h
  obtain ⟨before, after, hnames, -⟩ := List.lookup_eq_some_iff.mp hx
  refine List.mem_flatMap.mpr ⟨t, ht, List.mem_map.mpr ⟨(name, x), ?_, rfl⟩⟩
  rw [hnames]
  simp

@[simp] theorem mem_entities_define : x ∈ (s.define name y).entities ↔ x = y ∨ x ∈ s.entities := by
  simp [entities, define, toList, Scope.bind]

@[simp] theorem entities_push (kind : ScopeKind) : (s.push kind).entities = s.entities := by
  cases kind <;> rfl

theorem entities_pop_subset : s.pop.entities ⊆ s.entities := by
  obtain ⟨inner, outer⟩ := s
  cases outer with
  | nil => exact List.Subset.refl _
  | cons t ts => exact List.subset_append_right _ _

end Scopes

/-- What the library binds is what its entries say. -/
theorem Library.mem_entities_scopes {lib : Library} {x : Entity} :
    x ∈ lib.scopes.entities ↔ ∃ name, (name, x) ∈ lib.entries := by
  have hscopes : lib.scopes = ⟨⟨lib.entries.reverse, false, none⟩, []⟩ :=
    Check.Agrees.scopes_initial lib
  rw [hscopes]
  simp [Scopes.entities, Scopes.toList]

/-! ## The table of structs -/

namespace TypeTable

/-- A field of the struct `i` is of the struct `j`. -/
def Holds (types : TypeTable) (i j : StructId) : Prop :=
  ∃ f ∈ (types.get i).fields, f.type = .struct j

/-- A struct that has fields is in the table. -/
theorem Holds.index_lt {types : TypeTable} {i j : StructId} (h : types.Holds i j) :
    i.index < types.structs.length := by
  obtain ⟨f, hf, -⟩ := h
  by_contra hlt
  rw [get, List.getD_eq_default _ _ (Nat.le_of_not_lt hlt)] at hf
  cases hf

theorem nodup_of_go {seen names : List String} (h : firstRepeated?.go seen names = none) :
    names.Nodup ∧ ∀ n ∈ names, n ∉ seen := by
  induction names generalizing seen with
  | nil => exact ⟨List.nodup_nil, List.forall_mem_nil _⟩
  | cons n names ih =>
    rw [firstRepeated?.go] at h
    split_ifs at h with hseen
    obtain ⟨hnodup, hnew⟩ := ih h
    refine ⟨List.nodup_cons.mpr ⟨fun hmem => hnew n hmem List.mem_cons_self, hnodup⟩, ?_⟩
    refine List.forall_mem_cons.mpr ⟨by simpa using hseen, fun m hm hmem => ?_⟩
    exact hnew m hm (List.mem_cons_of_mem n hmem)

/-- Fields that a struct may have: no two have one name, and none is of the struct itself. -/
theorem fields_of_define {table types : TypeTable} {id : StructId} {fields : List Field}
    (h : table.define id fields = .ok types) :
    (fields.map (·.name)).Nodup ∧ ∀ f ∈ fields, f.type ≠ .struct id := by
  unfold define at h
  split at h
  · cases h
  · rename_i hnames
    split_ifs at h with hself
    refine ⟨(nodup_of_go hnames).1, fun f hf htype => hself ?_⟩
    exact List.any_eq_true.mpr ⟨f, hf, by simpa using htype⟩

end TypeTable

namespace Check

open Syntax

variable {lib : Library} {env : Env} {s s' : State}

/-! ## Fields -/

/-- An annotation that denotes a struct is its name. -/
theorem find?_of_resolve {t : TypeExpr} {id : StructId} (h : resolve env t = .ok (.struct id)) :
    ∃ name, env.scopes.find? name = some (.type (.struct id)) := by
  cases t with
  | named name span =>
    rw [resolve] at h
    obtain ⟨x, hx, h⟩ := bind_eq_ok.mp h
    cases x with
    | type u =>
      cases h
      exact ⟨name, find?_of_lookup hx⟩
    | «variable» | function => cases h
  | array | optional | sum =>
    rw [resolve] at h
    obtain ⟨_, -, h⟩ := bind_eq_ok.mp h
    cases h
  | function =>
    rw [resolve] at h
    obtain ⟨_, -, h⟩ := bind_eq_ok.mp h
    obtain ⟨_, -, h⟩ := bind_eq_ok.mp h
    cases h

theorem resolve_of_fields {bs : List Binding} {fs : List Field} (h : fields env bs = .ok fs) :
    ∀ f ∈ fs, ∃ t, resolve env t = .ok f.type := by
  induction bs generalizing fs with
  | nil =>
    cases h
    exact List.forall_mem_nil _
  | cons b bs ih =>
    simp only [fields, bind_eq_ok, pure_eq_ok] at h
    obtain ⟨t, ht, rest, hrest, rfl⟩ := h
    exact List.forall_mem_cons.mpr ⟨⟨b.type, ht⟩, ih hrest⟩

/-! ## Checking -/

/-- What every new variable keeps, the parameters of a function keep. -/
theorem parameters_keep {P : State → Prop}
    (step : ∀ s name v, P s → P (State.introduce s name (.variable v))) {bs : List Binding}
    {ts : List Ty} {vs : List Variable} (h : parameters bs ts s = .ok vs s') (hs : P s) : P s' := by
  induction bs generalizing ts s vs with
  | nil =>
    cases h
    exact hs
  | cons b bs ih =>
    cases ts with
    | nil =>
      cases h
      exact hs
    | cons t ts =>
      simp only [parameters, run_bind_ok, run_pure_ok] at h
      obtain ⟨v, _, hv, _, _, hrest, -, rfl⟩ := h
      obtain ⟨-, -, rfl⟩ := declareVariable_eq hv
      exact ih hrest (step s b.name v hs)

/-- Names stand for structs in the table, each of which holds earlier ones only, under different
names. -/
structure State.Layered (s : State) : Prop where
  known : ∀ id, .type (.struct id) ∈ s.env.scopes.entities → id.index < s.env.types.structs.length
  earlier : ∀ i j, s.env.types.Holds i j → j.index < i.index
  distinct : ∀ d ∈ s.env.types.structs, (d.fields.map (·.name)).Nodup

namespace State.Layered

theorem initial (hlib : lib.NoStructs) : (State.initial lib).Layered where
  known := by
    intro id hid
    obtain ⟨name, hname⟩ := Library.mem_entities_scopes.mp hid
    exact absurd hname (hlib name id)
  earlier := by
    intro i j h
    exact absurd h.index_lt (Nat.not_lt_zero _)
  distinct := List.forall_mem_nil _

theorem enter (h : s.Layered) (kind : ScopeKind) : (s.enter kind).Layered := by
  refine ⟨fun id hid => h.known id ?_, h.earlier, h.distinct⟩
  rwa [← Scopes.entities_push kind]

theorem leave (h : s.Layered) : s.leave.Layered :=
  ⟨fun id hid => h.known id (Scopes.entities_pop_subset hid), h.earlier, h.distinct⟩

/-- A variable or a function is no name for a struct. -/
theorem introduce (h : s.Layered) (name : String) {x : Entity} (hx : ∀ t, x ≠ .type t) :
    (s.introduce name x).Layered := by
  refine ⟨fun id hid => ?_, h.earlier, h.distinct⟩
  rcases Scopes.mem_entities_define.mp hid with heq | hid
  · exact absurd heq.symm (hx _)
  · exact h.known id hid

/-- While its fields are looked at, a struct has a name, and other names stand for earlier ones. -/
theorem known_structEnv (h : s.Layered) {name : String} {id : StructId}
    (hid : .type (.struct id) ∈ (s.structEnv name).scopes.entities) :
    id = s.env.types.nextId ∨ id.index < s.env.types.structs.length := by
  rcases Scopes.mem_entities_define.mp hid with heq | hid
  · cases heq
    exact .inl rfl
  · exact .inr (h.known id hid)

/-- **A struct may only hold structs that were there before.** -/
theorem index_lt_of_fields (h : s.Layered) {name : String} {bs : List Binding} {fs : List Field}
    (hfields : fields (s.structEnv name) bs = .ok fs)
    (hself : ∀ f ∈ fs, f.type ≠ .struct s.env.types.nextId) {f : Field} (hf : f ∈ fs)
    {j : StructId} (htype : f.type = .struct j) : j.index < s.env.types.structs.length := by
  obtain ⟨t, ht⟩ := resolve_of_fields hfields f hf
  rw [htype] at ht
  obtain ⟨other, hfind⟩ := find?_of_resolve ht
  rcases h.known_structEnv (Scopes.mem_entities_of_find? hfind) with rfl | hlt
  · exact absurd htype (hself f hf)
  · exact hlt

theorem introduceStruct (h : s.Layered) {name : String} {bs : List Binding} {fs : List Field}
    {types : TypeTable} (hfields : fields (s.structEnv name) bs = .ok fs)
    (hdefine : (s.env.types.declare name).define s.env.types.nextId fs = .ok types) :
    (s.introduceStruct name fs).Layered := by
  obtain ⟨hnodup, hself⟩ := TypeTable.fields_of_define hdefine
  have hlength : (s.introduceStruct name fs).env.types.structs.length =
      s.env.types.structs.length + 1 := by
    simp [State.introduceStruct]
  refine ⟨fun id hid => ?_, fun i j hij => ?_, fun d hd => ?_⟩
  · rw [hlength]
    rcases h.known_structEnv hid with rfl | hlt
    · exact Nat.lt_succ_self _
    · exact Nat.lt_succ_of_lt hlt
  · have hi := hij.index_lt
    rw [hlength] at hi
    obtain ⟨f, hf, htype⟩ := hij
    rcases Nat.lt_succ_iff_lt_or_eq.mp hi with hlt | heq
    · -- an old struct has kept its fields
      have hget : (s.introduceStruct name fs).env.types.get i = s.env.types.get i :=
        TypeTable.get_of_isPrefix (List.prefix_append _ _) hlt
      exact h.earlier i j ⟨f, hget ▸ hf, htype⟩
    · have hget : (s.introduceStruct name fs).env.types.get i = ⟨name, fs⟩ := by
        simp [TypeTable.get, State.introduceStruct, heq]
      rw [hget] at hf
      rw [heq]
      exact h.index_lt_of_fields hfields hself hf htype
  · rcases List.mem_append.mp hd with hd | hd
    · exact h.distinct d hd
    · rw [List.mem_singleton.mp hd]
      exact hnodup

end State.Layered

/-- What a step keeps, a check keeps. -/
theorem Checks.layered {o : Piece} (hc : Checks s o s') (h : s.Layered) : s'.Layered := by
  have hvariable : ∀ (v : Variable) (t : Ty), Entity.variable v ≠ .type t := by
    intro v t ht
    cases ht
  have hfunction : ∀ (f : Function) (t : Ty), Entity.function f ≠ .type t := by
    intro f t ht
    cases ht
  induction hc with
  | declare _ _ _ => exact h.introduce _ (hvariable _)
  | struct _ hfields hdefine => exact h.introduceStruct hfields hdefine
  | function _ _ _ hparams _ ih =>
    have hinside := parameters_keep (P := State.Layered)
      (fun _ name v h => h.introduce name (hvariable v)) hparams
    exact (ih (hinside ((h.introduce _ (hfunction _)).enter _))).leave
  | branch _ _ _ _ hyes hno => exact hno (hyes (h.enter _)).leave
  | whileLoop _ _ _ ih | repeatLoop _ _ _ ih | otherwise _ ih => exact (ih (h.enter _)).leave
  | rangeLoop _ _ _ _ _ _ ih | eachLoop _ _ _ _ ih =>
    exact (ih ((h.enter _).introduce _ (hvariable _))).leave
  | elseIf _ ih => exact ih h
  | cons _ _ hhead htail => exact htail (hhead h)
  | _ => exact h

end Check

/-! ## The numbers of structs -/

namespace Typed

mutual

/-- The structs that are declared by a statement and inside it, in the order of a walk over it. -/
def Stmt.structIds : Stmt → List StructId
  | .struct id => [id]
  | .function _ _ body | .shortBranch _ body | .whileLoop _ body | .repeatLoop _ body
  | .rangeLoop _ _ _ _ body | .eachLoop _ _ body => Stmt.structIdsAll body
  | .branch _ yes no => Stmt.structIdsAll yes ++ Stmt.structIdsAll no
  | .declare _ _ _ | .assign _ _ _ | .increment _ | .decrement _ | .breakLoop | .giveBack _
  | .perform _ => []

/-- The structs that are declared in a list. -/
def Stmt.structIdsAll : List Stmt → List StructId
  | [] => []
  | s :: rest => s.structIds ++ Stmt.structIdsAll rest

end

/-- The structs that a program declares, in the order of a walk over it. -/
def Program.structIds (p : Program) : List StructId := Stmt.structIdsAll p.statements

end Typed

namespace Check

variable {lib : Library} {s s' : State}

/-- The structs that are declared in a piece. -/
def Piece.structIds : Piece → List StructId
  | .stmt _ t => t.structIds
  | .stmts _ ts => Typed.Stmt.structIdsAll ts
  | .alternative _ no => Typed.Stmt.structIdsAll (no.getD [])

theorem structIds_typedBranch (e : Typed.Expr) (yes : List Typed.Stmt)
    (no : Option (List Typed.Stmt)) : (typedBranch e yes no).structIds =
      Typed.Stmt.structIdsAll yes ++ Typed.Stmt.structIdsAll (no.getD []) := by
  cases no <;> simp [typedBranch, Typed.Stmt.structIds, Typed.Stmt.structIdsAll]

/-- **Structs are numbered one after the other.** -/
theorem Checks.structIds {o : Piece} (h : Checks s o s') :
    Numbers s.env.types.structs.length (o.structIds.map (·.index))
      s'.env.types.structs.length := by
  induction h with
  | struct =>
    refine ⟨1, rfl, ?_⟩
    simp [State.introduceStruct]
  | function _ _ _ hparams _ ih =>
    have htypes := parameters_keep (P := fun s' => s'.env.types.structs.length = _)
      (fun _ _ _ h => h) hparams rfl
    rw [htypes] at ih
    exact ih
  | branch _ _ _ _ hyes hno =>
    rw [Piece.structIds, structIds_typedBranch, List.map_append]
    exact hyes.append hno
  | whileLoop _ _ _ ih | repeatLoop _ _ _ ih | otherwise _ ih => exact ih
  | rangeLoop _ _ _ _ _ _ ih | eachLoop _ _ _ _ ih => exact ih
  | elseIf _ ih => simpa [Piece.structIds, Typed.Stmt.structIdsAll] using ih
  | cons _ _ hhead htail =>
    rw [Piece.structIds, Typed.Stmt.structIdsAll, List.map_append]
    exact hhead.append htail
  | _ => exact .nil _

/-- **No struct of a checked program contains itself.** If the library has no struct, then a field
that is of a struct is of an earlier one, so that no chain of such fields comes back to where it
started. The fields of a struct have different names. The declarations of structs, in the order of a
walk over the program, carry the numbers of the table, each once and in order. -/
theorem program_layered {b : Syntax.Block} {p : Typed.Program} (hlib : lib.NoStructs)
    (h : program lib b = .ok p) :
    (∀ i j, p.types.Holds i j → j.index < i.index) ∧
      (∀ i, ¬ Relation.TransGen p.types.Holds i i) ∧
      (∀ d ∈ p.types.structs, (d.fields.map (·.name)).Nodup) ∧
      p.structIds = (List.range p.types.structs.length).map StructId.mk := by
  obtain ⟨s, hchecks, htypes⟩ := checks_of_program h
  have hlayered : s.Layered := hchecks.layered (.initial hlib)
  rw [← htypes]
  refine ⟨hlayered.earlier, fun i hcycle => ?_, hlayered.distinct, ?_⟩
  · have hchain : ∀ j k, Relation.TransGen s.env.types.Holds j k → k.index < j.index := by
      intro j k hjk
      induction hjk with
      | single hjk => exact hlayered.earlier _ _ hjk
      | tail _ hkl ih => exact (hlayered.earlier _ _ hkl).trans ih
    exact Nat.lt_irrefl _ (hchain i i hcycle)
  · obtain ⟨k, hids, hlength⟩ := hchecks.structIds
    have hk : k = s.env.types.structs.length := by
      rw [hlength]
      exact (Nat.zero_add k).symm
    have hindex : p.structIds.map (·.index) = List.range s.env.types.structs.length := by
      rw [← hk, List.range_eq_range']
      exact hids
    rw [← hindex, List.map_map]
    exact (List.map_id _).symm

namespace Sample

/-- `struct Leaf { n: int } fn f() { struct Tree { leaf: Leaf, next: Tree? } }` -/
def tree : Syntax.Block :=
  let s : Span := default
  .mk [
    .struct "Leaf" [⟨"n", .named "int" s, s⟩] s,
    .function "f" [] none
      (.mk [.struct "Tree" [⟨"leaf", .named "Leaf" s, s⟩,
        ⟨"next", .optional (.named "Tree" s) s, s⟩] s] s) s] s

/-- `tree` once it is checked. -/
def checkedTree : Typed.Program :=
  ⟨[.struct ⟨0⟩, .function ⟨0, "f", [], .void⟩ [] [.struct ⟨1⟩]],
    ⟨[⟨"Leaf", [⟨"n", .int⟩]⟩,
      ⟨"Tree", [⟨"leaf", .struct ⟨0⟩⟩, ⟨"next", .optional (.struct ⟨1⟩)⟩]⟩]⟩⟩

end Sample

/-- A struct in the body of a function, with a field of a struct before it and one that may be of
the struct itself. -/
theorem program_layered_tree :
    Sample.integers.NoStructs ∧ program Sample.integers Sample.tree = .ok Sample.checkedTree ∧
      Sample.checkedTree.types.Holds ⟨1⟩ ⟨0⟩ ∧
      (∀ i, ¬ Relation.TransGen Sample.checkedTree.types.Holds i i) ∧
      Sample.checkedTree.structIds = [⟨0⟩, ⟨1⟩] := by
  have hlib : Sample.integers.NoStructs := by simp [Library.NoStructs, Sample.integers]
  have hp : program Sample.integers Sample.tree = .ok Sample.checkedTree := by cbv
  obtain ⟨-, hcycle, -, hids⟩ := program_layered hlib hp
  exact ⟨hlib, hp, ⟨_, List.mem_cons_self, rfl⟩, hcycle, hids⟩

end Check

end Quill
