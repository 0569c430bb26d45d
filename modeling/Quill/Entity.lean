import Quill.Ty.Table

/-!
# What a name can stand for

A name stands for a variable, a function or a type. Variables and functions have an identity, a
number that no other declaration of a program shares: two declarations of one name are two
variables.
-/

namespace Quill

/-- A variable: its identity, its name, whether it may be assigned to, and its type. -/
structure Variable where
  id : Nat
  name : String
  readOnly : Bool
  type : Ty
deriving DecidableEq, Repr, Inhabited

/-- A function: its identity, its name, and the types it takes and gives. -/
structure Function where
  id : Nat
  name : String
  params : List Ty
  result : Ty
deriving DecidableEq, Repr, Inhabited

/-- The type of a function as a value. -/
def Function.type (f : Function) : Ty := .function f.params f.result

/-- What a name stands for. -/
inductive Entity where
  | variable (v : Variable)
  | function (f : Function)
  | type (t : Ty)
deriving DecidableEq, Repr, Inhabited

/-- The identity of a variable or a function. -/
def Entity.id? : Entity → Option Nat
  | .variable v => some v.id
  | .function f => some f.id
  | .type _ => none

end Quill
