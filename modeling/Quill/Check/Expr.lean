import Quill.Check.Type

/-!
# Checking expressions

`expr` gives an expression its type or finds the first fault, from left to right. The rules of the
operators are functions of the operands' types; the places they take are those where a fault of the
left and of the right operand is reported.
-/

namespace Quill.Check

open Syntax

/-- The type of `left op right`. -/
def binaryType (env : Env) (op : BinaryOp) (left right : Typed.Expr) (p q : Position) :
    Except Diagnostic Ty :=
  match op with
  | .coalesce =>
    match left.type.optionalBase? with
    | some base => do
      env.expectAssignable right base q
      return base
    | none => throw (env.wrongClass "an optional" left.type p)
  | .or | .and => do
    env.expectBool left.type p
    env.expectBool right.type q
    return .bool
  | .bitOr | .bitXor | .bitAnd | .shiftLeft | .shiftRight => do
    env.expectInt left.type p
    env.expectInt right.type q
    return .int
  | .less | .lessEquals | .greaterEquals | .greater => do
    env.expectClass left.type Ty.isNumericOrString "a number or string" p
    env.expectSame left.type right.type q
    return .bool
  | .equals | .notEquals => do
    env.expectSame left.type right.type q
    return .bool
  | .add => do
    env.expectClass left.type Ty.isNumericOrString "a number or string" p
    env.expectSame left.type right.type q
    return left.type
  | .subtract | .multiply | .divide | .remainder | .power => do
    env.expectClass left.type Ty.isNumeric "a number" p
    env.expectSame left.type right.type q
    return left.type

/-- The type of `op operand`. -/
def unaryType (env : Env) (op : UnaryOp) (operand : Ty) (p : Position) :
    Except Diagnostic Ty :=
  match op with
  | .negate => do
    env.expectClass operand Ty.isNumeric "a number" p
    return operand
  | .not => do
    env.expectBool operand p
    return .bool
  | .length => do
    env.expectClass operand Ty.isArray "an array" p
    return .int
  | .some => return .optional operand

/-- The element type of an array of such elements: their common type, or the sum of their types. -/
def elementType (elements : List Typed.Expr) : Ty :=
  match Ty.ofAlternatives (elements.map (·.type)) with
  | .sum [t] => t
  | t => t

/-- The element type of a type that must be one of arrays. -/
def expectArray (env : Env) (t : Ty) (p : Position) : Except Diagnostic Ty :=
  match t with
  | .array element => .ok element
  | t => .error (env.wrongClass "an array" t p)

/-- The value that a name used as an expression stands for. -/
def symbol (env : Env) (name : String) (p : Position) : Except Diagnostic Typed.Expr := do
  match ← env.scopes.lookup name p with
  | .variable v => return .variable v
  | .function f => return .function f
  | .type t =>
    let isStruct := match t with
      | .struct _ => true
      | _ => false
    throw ⟨.typeAsValue name isStruct, p⟩

/-- The struct whose field is taken of a value of this type. -/
def receiver? (chained : Bool) (object : Ty) : Option StructId :=
  match if chained then object.optionalBase? else some object with
  | some (.struct id) => some id
  | _ => none

/-- A field of a checked object. The places are those of the object and of the whole. -/
def member (env : Env) (object : Typed.Expr) (field : String) (chained : Bool)
    (p whole : Position) : Except Diagnostic Typed.Expr :=
  match receiver? chained object.type with
  | none =>
    let expected := if chained then "an optional struct" else "a struct"
    .error (env.wrongClass expected object.type p)
  | some id =>
    match (env.types.get id).field? field with
    | none => .error ⟨.unknownField field (env.types.get id).name, whole⟩
    | some f => .ok (.member object field chained (if chained then .optional f.type else f.type))

/-- The number of arguments must be that of the parameters. -/
def expectArity (params : List Ty) (args : List Expr) (p : Position) : Except Diagnostic Unit :=
  if args.length = params.length then .ok ()
  else .error ⟨.wrongArity params.length args.length, p⟩

/-- The parameters and the result of a type that must be one of functions. -/
def expectFunction (env : Env) (t : Ty) (p : Position) : Except Diagnostic (List Ty × Ty) :=
  match t with
  | .function params result => .ok (params, result)
  | t => .error ⟨.notCallable (env.describe t), p⟩

/-- The struct that a type used as a callee makes. -/
def expectStruct (env : Env) (t : Ty) (p : Position) : Except Diagnostic StructId :=
  match t with
  | .struct id => .ok id
  | t => .error ⟨.notCallable (env.describe t), p⟩

/-- The type that the callee of a call names, if it is the name of one: such a call makes a
struct. -/
def constructed? (env : Env) : Expr → Except Diagnostic (Option (Ty × Position))
  | .symbol name span => do
    match ← env.scopes.lookup name span.start with
    | .type t => return some (t, span.start)
    | _ => return none
  | _ => return none

mutual

/-- The typed expression, or the first fault in it. -/
def expr (env : Env) : Expr → Except Diagnostic Typed.Expr
  | .int n _ => return .int n
  | .float x _ => return .float x
  | .string s _ => return .string s
  | .bool b _ => return .bool b
  | .symbol name span => symbol env name span.start
  | .binary op l r _ => do
    let left ← expr env l
    let right ← expr env r
    let type ← binaryType env op left right l.span.start r.span.start
    return .binary op left right type
  | .unary op e _ => do
    let operand ← expr env e
    let type ← unaryType env op operand.type e.span.start
    return .unary op operand type
  | .conditional t y n _ => do
    let test ← expr env t
    env.expectBool test.type t.span.start
    let yes ← expr env y
    let no ← expr env n
    env.expectSame yes.type no.type n.span.start
    return .conditional test yes no yes.type
  | .array es _ => do
    let elements ← exprs env es
    return .array elements (.array (elementType elements))
  | .emptyArray t _ => do return .emptyArray (.array (← resolve env t))
  | .absent t _ => do return .absent (.optional (← resolve env t))
  | .subscript a i _ => do
    let array ← expr env a
    let element ← expectArray env array.type a.span.start
    let index ← expr env i
    env.expectInt index.type i.span.start
    return .subscript array index element
  | .member o field chained span => do
    let object ← expr env o
    member env object field chained o.span.start span.start
  | .call c as span => do
    match ← constructed? env c with
    | some (t, p) =>
      let id ← expectStruct env t p
      let params := (env.types.get id).fields.map (·.type)
      expectArity params as span.start
      return .construct id (← arguments env params as)
    | none =>
      let callee ← expr env c
      let (params, result) ← expectFunction env callee.type c.span.start
      expectArity params as span.start
      return .call callee (← arguments env params as) result

/-- Several typed expressions, from left to right. -/
def exprs (env : Env) : List Expr → Except Diagnostic (List Typed.Expr)
  | [] => return []
  | e :: es => do
    let e ← expr env e
    return e :: (← exprs env es)

/-- The arguments of a call, each of which must fit its parameter. -/
def arguments (env : Env) (params : List Ty) : List Expr → Except Diagnostic (List Typed.Expr)
  | [] => return []
  | e :: es => do
    match params with
    | [] => return []
    | t :: ts =>
      let arg ← expr env e
      env.expectAssignable arg t e.span.start
      return arg :: (← arguments env ts es)

end

end Quill.Check
