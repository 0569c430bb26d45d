import Quill.Scope
import Quill.Syntax.Basic
import Quill.Typed.Basic

/-!
# What checking looks things up in

The open scopes and the structs declared so far, and the demands that a rule may make of a type:
that it fits a place, belongs to a class, or is the same as another.
-/

namespace Quill.Check

/-- What a name can be looked up in. -/
structure Env where
  scopes : Scopes
  types : TypeTable
deriving DecidableEq, Repr, Inhabited

namespace Env

/-- A type as it is written in messages. -/
def describe (env : Env) (t : Ty) : String := env.types.describe t

/-- The value must fit the place. -/
def expectAssignable (env : Env) (source : Typed.Expr) (target : Ty) (p : Position) :
    Except Diagnostic Unit :=
  if source.type.assignable target then .ok ()
  else .error ⟨.notAssignable (env.describe target) (env.describe source.type), p⟩

/-- The fault that a type is not of the expected class. -/
def wrongClass (env : Env) (expected : String) (received : Ty) (p : Position) : Diagnostic :=
  ⟨.wrongClass expected (env.describe received), p⟩

/-- The type must be of the class. -/
def expectClass (env : Env) (t : Ty) (inClass : Ty → Bool) (expected : String) (p : Position) :
    Except Diagnostic Unit :=
  if inClass t then .ok () else .error (env.wrongClass expected t p)

/-- The type must be that of integers. -/
def expectInt (env : Env) (t : Ty) (p : Position) : Except Diagnostic Unit :=
  env.expectClass t (· = .int) "an integer" p

/-- The type must be that of truth values. -/
def expectBool (env : Env) (t : Ty) (p : Position) : Except Diagnostic Unit :=
  env.expectClass t (· = .bool) "a boolean" p

/-- The two types must be the same. -/
def expectSame (env : Env) (left right : Ty) (p : Position) : Except Diagnostic Unit :=
  if left.equivalent right then .ok ()
  else .error ⟨.operandsDiffer (env.describe left) (env.describe right), p⟩

end Env

end Quill.Check
