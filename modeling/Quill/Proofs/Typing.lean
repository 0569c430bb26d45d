import Quill.Proofs.Agreement

/-!
# The static rules

`Expr.Obeys` says that a node of an expression obeys its rule, relative to the table of structs of
the program; `Stmt.Obeys` says so of a statement at its place. Nothing in the two refers to how the
types were found.

A struct is known by its number, and the table grows while a program is checked. A rule that was
obeyed when the node was checked is obeyed in the finished table, since a struct that is declared
stays what it is; and all structs that a node refers to are declared by then, if the library has no
struct of its own.

Results:
* `Sees.obeys`: what checking has seen to in a node comes to its rule.
* `Agrees.obeys`: the rule of a statement that is checked where it stands.
* **`Check.program_obeys`**: every node and every statement of a checked program obeys its rule.
-/

namespace Quill

/-- The library has no name for a struct. -/
def Library.NoStructs (lib : Library) : Prop := ∀ name id, (name, .type (.struct id)) ∉ lib.entries

namespace Typed

/-! ## The rules -/

/-- The struct that the node makes. -/
def Expr.made? : Expr → Option StructId
  | .construct id _ => some id
  | _ => none

/-- The node obeys its rule, the fields that it takes or fills are those of structs in the table,
and so is the struct that it makes. -/
structure Expr.Obeys (types : TypeTable) (e : Expr) : Prop where
  ruled : e.Ruled
  fielded : e.Fielded types
  made : ∀ id ∈ e.made?, id.index < types.structs.length

/-- The statement may stand at the place: a struct is in the table, and what is given back fits the
result of the function around it. -/
def Stmt.Placed (types : TypeTable) (d : Site) : Stmt → Prop
  | .struct id => id.index < types.structs.length
  | .giveBack (some value) =>
    ∃ f, d.function? = some f ∧ f.result ≠ .void ∧ value.type.assignable f.result = true
  | .giveBack none => ∃ f, d.function? = some f ∧ f.result = .void
  | _ => True

/-- The statement obeys its rule and may stand at the place. -/
structure Stmt.Obeys (types : TypeTable) (d : Site) (s : Stmt) : Prop where
  ruled : s.Ruled
  placed : s.Placed types d

end Typed

namespace Check

open Syntax
open Typed (Site)

variable {lib : Library} {env : Env} {types : TypeTable} {s s' : State} {d : Site}

/-! ## Expressions -/

/-- **What checking has seen to comes to the rule of the node**, in every table that goes on from
the one of that moment, if the names of structs are of structs in the table. -/
theorem Sees.obeys {e : Typed.Expr} (h : Sees env e)
    (hgrows : env.types.structs <+: types.structs)
    (hknown : ∀ name id, env.scopes.find? name = some (.type (.struct id)) →
      id.index < env.types.structs.length) : e.Obeys types := by
  obtain ⟨hruled, hnamed, hfielded⟩ := h
  cases e with
  | member object field chained t =>
    obtain ⟨id, f, hlt, hfield, hobject, ht⟩ := hfielded
    rw [← TypeTable.get_of_isPrefix hgrows hlt] at hfield
    exact ⟨hruled, ⟨id, f, hlt.trans_le hgrows.length_le, hfield, hobject, ht⟩, nofun⟩
  | construct id args =>
    obtain ⟨name, hname⟩ := hnamed
    have hlt := hknown name id hname
    refine ⟨trivial, ?_, ?_⟩
    · rw [Typed.Expr.Fielded, TypeTable.get_of_isPrefix hgrows hlt]
      exact hfielded
    · rintro _ ⟨⟩
      exact hlt.trans_le hgrows.length_le
  | _ => exact ⟨hruled, trivial, nofun⟩

/-! ## Statements -/

/-- Where the library has no struct, every struct that is found is in the table. -/
theorem Agrees.index_lt (h : Agrees lib types s d) (hlib : lib.NoStructs) {name : String}
    {id : StructId} (hname : s.env.scopes.find? name = some (.type (.struct id))) :
    id.index < s.env.types.structs.length := by
  rw [h.lookup] at hname
  rcases Site.mem_of_lookup hname with hmem | hvis
  · exact absurd hmem (hlib name id)
  · exact h.known id hvis

/-- **A statement that is checked where it stands obeys its rule.** -/
theorem Agrees.obeys (h : Agrees lib types s d) {a : Stmt} {t : Typed.Stmt}
    (hc : Checks s (.stmt a t) s') (hgrows : s'.env.types.structs <+: types.structs) :
    t.Obeys types d := by
  refine ⟨hc.ruled, ?_⟩
  cases hc with
  | struct hnew hfs hdef =>
    have hlen := hgrows.length_le
    simp only [State.introduceStruct, List.length_append, List.length_singleton] at hlen
    exact hlen
  | leave hf hvoid => exact ⟨_, h.function.symm.trans hf, hvoid⟩
  | giveBack hf hvoid _ hfits => exact ⟨_, h.function.symm.trans hf, hvoid, hfits⟩
  | @branch _ _ _ _ _ _ _ e yes no => cases no <;> exact trivial
  | _ => exact trivial

/-- Every statement of a checked program obeys its rule, and so does every node of its
expressions. -/
theorem obeys_of_at {b : Block} {p : Typed.Program} (hlib : lib.NoStructs)
    (h : program lib b = .ok p) {t : Typed.Stmt} (ht : p.At d t) :
    t.Obeys p.types d ∧ ∀ e ∈ t.exprs, e.Everywhere (·.Obeys p.types) := by
  obtain ⟨a, htwin⟩ := exists_twin h ht
  obtain ⟨s₁, s₂, hchecks, hgrows, hagree⟩ := checks_of_twin h htwin
  refine ⟨hagree.obeys hchecks hgrows, fun e he => ?_⟩
  obtain ⟨a, ha⟩ := hchecks.exprs e he
  have hbefore := (hchecks.binds hgrows).grows.trans hgrows
  exact (expr_checked s₁.env ha).imp fun c hc =>
    hc.obeys hbefore fun name id => hagree.index_lt hlib

/-- **Every node and every statement of a checked program obeys its rule**, relative to the structs
that the program declares. -/
theorem program_obeys {b : Block} {p : Typed.Program} (hlib : lib.NoStructs)
    (h : program lib b = .ok p) :
    ∀ d t, p.At d t →
      t.Obeys p.types d ∧ ∀ e ∈ t.exprs, e.Everywhere (·.Obeys p.types) :=
  fun _ _ => obeys_of_at hlib h

namespace Sample

/-- A library with one name. -/
def integers : Library := ⟨[("int", .type .int)], 0, by simp [Entity.id?]⟩

/-- `struct Cell { x: int } let c = some Cell(1); let y = c?.x ?? 0;` -/
def reading : Block :=
  let s : Span := default
  .mk [
    .struct "Cell" [⟨"x", .named "int" s, s⟩] s,
    .declare "c" false false (.unary .some (.call (.symbol "Cell" s) [.int 1 s] s) s) s,
    .declare "y" false false
      (.binary .coalesce (.member (.symbol "c" s) "x" true s) (.int 0 s) s) s] s

/-- The type of the struct that `reading` declares. -/
def cell : Ty := .struct ⟨0⟩

/-- The variable that holds it. -/
def holder : Variable := ⟨0, "c", false, .optional cell⟩

/-- The variable that takes the field. -/
def taker : Variable := ⟨1, "y", false, .int⟩

/-- The field that is read. -/
def fieldOfHolder : Typed.Expr := .member (.variable holder) "x" true (.optional .int)

/-- `reading` once it is checked. -/
def checkedReading : Typed.Program :=
  ⟨[.struct ⟨0⟩,
    .declare holder false (.unary .some (.construct ⟨0⟩ [.int 1]) (.optional cell)),
    .declare taker false (.binary .coalesce fieldOfHolder (.int 0) .int)],
    ⟨[⟨"Cell", [⟨"x", .int⟩]⟩]⟩⟩

end Sample

theorem program_obeys_reading :
    Sample.integers.NoStructs ∧ program Sample.integers Sample.reading = .ok Sample.checkedReading ∧
      Sample.fieldOfHolder.Obeys Sample.checkedReading.types := by
  have hlib : Sample.integers.NoStructs := by simp [Library.NoStructs, Sample.integers]
  have hp : program Sample.integers Sample.reading = .ok Sample.checkedReading := by cbv
  have hat : Sample.checkedReading.At _
      (.declare Sample.taker false (.binary .coalesce Sample.fieldOfHolder (.int 0) .int)) :=
    .later (.later .here)
  have hrule := (program_obeys hlib hp _ _ hat).2 _ List.mem_cons_self
  exact ⟨hlib, hp, (hrule.inside Sample.fieldOfHolder List.mem_cons_self).here⟩

end Check

end Quill
