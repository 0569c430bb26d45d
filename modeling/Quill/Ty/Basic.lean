/-!
# Types

The types of values: six basic ones, structs known by number, arrays, functions, and sums of
several alternatives. An optional type is the sum of its base and `void`.

Two types are the same type when `equivalent` says so; a value of one may be put where another is
wanted when `assignable` says so.
-/

namespace Quill

/-- The types that have a name of their own. -/
inductive Basic where
  | int | float | string | bool | void | any
deriving DecidableEq, Repr, Inhabited

namespace Basic

/-- Every basic type. -/
def all : List Basic := [.int, .float, .string, .bool, .void, .any]

/-- The name of a basic type. -/
def name : Basic → String
  | .int => "int"
  | .float => "float"
  | .string => "string"
  | .bool => "bool"
  | .void => "void"
  | .any => "any"

end Basic

/-- The number of a struct, in the order of declaration. -/
structure StructId where
  index : Nat
deriving DecidableEq, Repr, Inhabited

/-- A type. -/
inductive Ty where
  | basic (b : Basic)
  | struct (id : StructId)
  | array (element : Ty)
  | function (params : List Ty) (result : Ty)
  | sum (alternatives : List Ty)
deriving Repr, Inhabited

namespace Ty

/-! ## Equality is decidable -/

mutual

/-- Decides whether two types are equal. -/
def decEq : (a b : Ty) → Decidable (a = b)
  | .basic a, .basic b => decidable_of_iff (a = b) (by simp)
  | .struct a, .struct b => decidable_of_iff (a = b) (by simp)
  | .array a, .array b =>
    match decEq a b with
    | isTrue h => isTrue (by rw [h])
    | isFalse h => isFalse (by simpa using h)
  | .function ps r, .function qs s =>
    match decEqList ps qs, decEq r s with
    | isTrue h, isTrue k => isTrue (by rw [h, k])
    | isFalse h, _ => isFalse fun e => h (Ty.function.inj e).1
    | _, isFalse k => isFalse fun e => k (Ty.function.inj e).2
  | .sum as, .sum bs =>
    match decEqList as bs with
    | isTrue h => isTrue (by rw [h])
    | isFalse h => isFalse (by simpa using h)
  | .basic _, .struct _ | .basic _, .array _ | .basic _, .function _ _ | .basic _, .sum _
  | .struct _, .basic _ | .struct _, .array _ | .struct _, .function _ _ | .struct _, .sum _
  | .array _, .basic _ | .array _, .struct _ | .array _, .function _ _ | .array _, .sum _
  | .function _ _, .basic _ | .function _ _, .struct _ | .function _ _, .array _
  | .function _ _, .sum _
  | .sum _, .basic _ | .sum _, .struct _ | .sum _, .array _ | .sum _, .function _ _ =>
    isFalse nofun

/-- Decides whether two lists of types are equal. -/
def decEqList : (as bs : List Ty) → Decidable (as = bs)
  | [], [] => isTrue rfl
  | [], _ :: _ => isFalse nofun
  | _ :: _, [] => isFalse nofun
  | a :: as, b :: bs =>
    match decEq a b, decEqList as bs with
    | isTrue h, isTrue k => isTrue (by rw [h, k])
    | isFalse h, _ => isFalse fun e => h (List.cons.inj e).1
    | _, isFalse k => isFalse fun e => k (List.cons.inj e).2

end

instance : DecidableEq Ty := decEq

/-! ## The basic types -/

/-- Integers. -/
abbrev int : Ty := .basic .int

/-- Floats. -/
abbrev float : Ty := .basic .float

/-- Texts. -/
abbrev string : Ty := .basic .string

/-- Truth values. -/
abbrev bool : Ty := .basic .bool

/-- No value. -/
abbrev void : Ty := .basic .void

/-- Any value. -/
abbrev any : Ty := .basic .any

/-- Whether the type is that of integers or of floats. -/
def isNumeric (t : Ty) : Bool := t = int || t = float

/-- Whether the type is that of integers, of floats or of texts. -/
def isNumericOrString (t : Ty) : Bool := t = int || t = float || t = string

/-- Whether the type is one of arrays. -/
def isArray : Ty → Bool
  | .array _ => true
  | _ => false

/-! ## Sameness -/

mutual

/-- Whether two types are the same. -/
def equivalent : Ty → Ty → Bool
  | .basic a, .basic b => a = b
  | .struct a, .struct b => a = b
  | .array a, .array b => a.equivalent b
  | .function ps r, .function qs s =>
    r.equivalent s && ps.length = qs.length && equivalentZip ps qs
  | .sum as, .sum bs => as.length = bs.length && equivalentZip as bs
  | _, _ => false

/-- Whether two lists of types agree as far as both go. -/
def equivalentZip : List Ty → List Ty → Bool
  | a :: as, b :: bs => a.equivalent b && equivalentZip as bs
  | _, _ => true

end

/-! ## Sums and optionals -/

/-- The list without every type that is the same as an earlier one. -/
def distinct (ts : List Ty) : List Ty :=
  ts.foldl (fun seen t => if seen.any (·.equivalent t) then seen else seen ++ [t]) []

/-- The sum of the given types, each once. -/
def ofAlternatives (ts : List Ty) : Ty := .sum (distinct ts)

/-- A value of the base type, or none. -/
def optional (base : Ty) : Ty := ofAlternatives [base, void]

/-- The base of an optional type: the first of two alternatives, the second of which is `void`. -/
def optionalBase? : Ty → Option Ty
  | .sum [base, t] => if t = void then some base else none
  | _ => none

/-! ## Assignability -/

mutual

/-- Whether a value of the first type may be put where the second is wanted. Anything fits `any`,
a type fits itself; functions take wider parameters and give narrower results; each alternative of
a sum fits some alternative of the other, which has at least as many; anything else fits a sum if
it fits an alternative; arrays go by their elements. -/
def assignable (a b : Ty) : Bool :=
  b = any || a.equivalent b ||
    match a, b with
    | .function ps r, .function qs s =>
      r.assignable s && ps.length = qs.length && assignableZip qs ps
    | .sum as, .sum bs => as.length ≤ bs.length && allAssignable as bs
    | a, .sum bs => someAssignable a bs
    | .array a, .array b => a.assignable b
    | _, _ => false
termination_by sizeOf a + sizeOf b

/-- Whether each type of the first list is assignable to its partner, as far as both go. -/
def assignableZip (as bs : List Ty) : Bool :=
  match as, bs with
  | a :: as, b :: bs => a.assignable b && assignableZip as bs
  | _, _ => true
termination_by sizeOf as + sizeOf bs

/-- Whether the type is assignable to one of the list. -/
def someAssignable (a : Ty) (bs : List Ty) : Bool :=
  match bs with
  | [] => false
  | b :: bs => a.assignable b || someAssignable a bs
termination_by sizeOf a + sizeOf bs

/-- Whether each type of the first list is assignable to one of the second. -/
def allAssignable (as bs : List Ty) : Bool :=
  match as with
  | [] => true
  | a :: as => someAssignable a bs && allAssignable as bs
termination_by sizeOf as + sizeOf bs

end

end Ty

end Quill
