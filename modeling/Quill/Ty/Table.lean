import Quill.Diagnostic.Basic
import Quill.Ty.Basic

/-!
# The table of structs

Structs are numbered in the order of their declaration. A struct is declared first and gets its
fields later, so that the fields may mention it. `describe` writes a type as a reader knows it.
-/

namespace Quill

/-- A field of a struct. -/
structure Field where
  name : String
  type : Ty
deriving DecidableEq, Repr, Inhabited

/-- A struct: its name and its fields in order. -/
structure StructDef where
  name : String
  fields : List Field
deriving DecidableEq, Repr, Inhabited

/-- The field of that name. -/
def StructDef.field? (d : StructDef) (name : String) : Option Field :=
  d.fields.find? fun f => f.name == name

/-- The structs declared so far; the number of a struct is its place in the list. -/
structure TypeTable where
  structs : List StructDef
deriving DecidableEq, Repr, Inhabited

namespace TypeTable

/-- No struct. -/
def empty : TypeTable := ⟨[]⟩

/-- The struct of that number; one without name and fields if it is not declared. -/
def get (table : TypeTable) (id : StructId) : StructDef := table.structs.getD id.index ⟨"", []⟩

/-- The number of the struct that is declared next. -/
def nextId (table : TypeTable) : StructId := ⟨table.structs.length⟩

/-- Declares a struct, as yet without fields, under the number `nextId`. -/
def declare (table : TypeTable) (name : String) : TypeTable :=
  ⟨table.structs ++ [⟨name, []⟩]⟩

/-- The first name that stands for a second time in a list. -/
def firstRepeated? : List String → Option String
  | names => go [] names
where
  /-- The same, given the names before. -/
  go (seen : List String) : List String → Option String
    | [] => none
    | n :: ns => if seen.contains n then some n else go (n :: seen) ns

/-- Gives a declared struct its fields. No two may share a name, and none may be of the struct
itself. -/
def define (table : TypeTable) (id : StructId) (fields : List Field) :
    Except Cause TypeTable :=
  match firstRepeated? (fields.map (·.name)) with
  | some field => .error (.repeatedField (table.get id).name field)
  | none =>
    if fields.any fun f => f.type = .struct id then .error (.recursiveStruct (table.get id).name)
    else .ok ⟨table.structs.modify id.index fun d => { d with fields := fields }⟩

mutual

/-- A type as it is written in messages: `[T]`, `(A,B)->R`, `T?`, `<A,B>`, or a name. -/
def describe (table : TypeTable) : Ty → String
  | .basic b => b.name
  | .struct id => (table.get id).name
  | .array element => "[" ++ describe table element ++ "]"
  | .function params result =>
    "(" ++ ",".intercalate (describeAll table params) ++ ")->" ++ describe table result
  | .sum [base, .basic .void] => describe table base ++ "?"
  | .sum alternatives => "<" ++ ",".intercalate (describeAll table alternatives) ++ ">"

/-- Each type of a list as it is written in messages. -/
def describeAll (table : TypeTable) : List Ty → List String
  | [] => []
  | t :: ts => describe table t :: describeAll table ts

end

end TypeTable

end Quill
