import Quill.Scope

/-!
# Libraries

A library is what the outermost scope holds before a program is checked: a list of names with what
they stand for. A name bound again moves to the end. Each variable and function of a library has an
identity of its own, below `nextId`; the type of libraries sees to the bound, so that no declaration
of a program can share an identity with the library.
-/

namespace Quill

/-- The names a program may take for granted, in order. -/
structure Library where
  entries : List (String × Entity)
  nextId : Nat
  id_lt : ∀ e ∈ entries, ∀ i ∈ e.2.id?, i < nextId
deriving DecidableEq, Repr

namespace Library

/-- No name at all, not even those of the basic types. -/
def empty : Library := ⟨[], 0, nofun⟩

instance : Inhabited Library := ⟨empty⟩

/-- What the library binds the name to. -/
def get? (lib : Library) (name : String) : Option Entity := lib.entries.lookup name

/-- The entries without those of one name, and the new one at the end. -/
def insert (entries : List (String × Entity)) (name : String) (entity : Entity) :
    List (String × Entity) :=
  entries.filter (fun e => e.1 ≠ name) ++ [(name, entity)]

/-- The library with one entry more, whose identity is below the new bound. -/
def bind (lib : Library) (name : String) (entity : Entity) (nextId : Nat)
    (hnext : lib.nextId ≤ nextId) (hid : ∀ i ∈ entity.id?, i < nextId) : Library where
  entries := insert lib.entries name entity
  nextId := nextId
  id_lt e he i hi := by
    rcases List.mem_append.mp he with he | he
    · exact Nat.lt_of_lt_of_le (lib.id_lt e (List.mem_filter.mp he).1 i hi) hnext
    · cases List.mem_singleton.mp he
      exact hid i hi

/-- Binds a name to a type. -/
def withType (lib : Library) (name : String) (type : Ty) : Library :=
  lib.bind name (.type type) lib.nextId (Nat.le_refl _) nofun

/-- Binds `name` to a new variable, which may have another name of its own. -/
def withVariable (lib : Library) (name own : String) (readOnly : Bool) (type : Ty) : Library :=
  lib.bind name (.variable ⟨lib.nextId, own, readOnly, type⟩) (lib.nextId + 1) (Nat.le_succ _)
    fun _ hi => Option.some.inj hi ▸ Nat.lt_succ_self _

/-- Binds `name` to a new function, which may have another name of its own. -/
def withFunction (lib : Library) (name own : String) (params : List Ty) (result : Ty) : Library :=
  lib.bind name (.function ⟨lib.nextId, own, params, result⟩) (lib.nextId + 1) (Nat.le_succ _)
    fun _ hi => Option.some.inj hi ▸ Nat.lt_succ_self _

/-- The names of the basic types, a constant and a few functions. -/
def standard : Library :=
  let types := Basic.all.foldl (fun lib b => lib.withType b.name (.basic b)) empty
  let functions : List (String × List Ty × Ty) :=
    [("print", [.any], .void), ("sin", [.float], .float), ("cos", [.float], .float),
     ("exp", [.float], .float), ("ln", [.float], .float), ("hypot", [.float, .float], .float),
     ("bytes", [.string], .array .int)]
  functions.foldl (fun lib f => lib.withFunction f.1 f.1 f.2.1 f.2.2)
    (types.withVariable "pi" "pi" true .float)

/-- The outermost scope with every entry of the library. -/
def scopes (lib : Library) : Scopes :=
  lib.entries.foldl (fun s e => s.define e.1 e.2) .root

end Library

end Quill
