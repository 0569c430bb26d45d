import Quill.Check.Env

/-!
# The types that annotations denote
-/

namespace Quill.Check

open Syntax

mutual

/-- The type that an annotation denotes. -/
def resolve (env : Env) : TypeExpr → Except Diagnostic Ty
  | .named name span => do
    match ← env.scopes.lookup name span.start with
    | .type t => return t
    | _ => throw ⟨.notAType name, span.start⟩
  | .array element _ => do return .array (← resolve env element)
  | .optional base _ => do return .optional (← resolve env base)
  | .sum alternatives _ => do return .ofAlternatives (← resolveAll env alternatives)
  | .function params result _ => do
    let params ← resolveAll env params
    return .function params (← resolve env result)

/-- The types that several annotations denote, from left to right. -/
def resolveAll (env : Env) : List TypeExpr → Except Diagnostic (List Ty)
  | [] => return []
  | t :: ts => do
    let t ← resolve env t
    return t :: (← resolveAll env ts)

end

end Quill.Check
