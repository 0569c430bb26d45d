import Quill.Check.Expr
import Quill.Library

/-!
# Checking statements

A checker reads and extends the scopes and the table of structs, and hands out identities to
variables and functions in the order of their declaration. A scope that is entered is left again on
every path, so that a failing checker leaves the scopes around it as they were.
-/

namespace Quill.Check

open Syntax

/-- What statements change: the names and structs known so far, and the next free identity. -/
structure State where
  env : Env
  nextId : Nat
deriving DecidableEq, Repr, Inhabited

/-- A checker changes the state, or stops at the first fault. -/
abbrev Checker := EStateM Diagnostic State

namespace Checker

variable {α : Type}

/-- What depends on the names and structs known so far only. -/
def ask (f : Env → Except Diagnostic α) : Checker α := do
  match f (← get).env with
  | .ok a => return a
  | .error d => throw d

/-- A new identity. -/
def freshId : Checker Nat := do
  let s ← get
  set { s with nextId := s.nextId + 1 }
  return s.nextId

/-- Binds a name declared at `p` in the innermost scope. -/
def declare (name : String) (entity : Entity) (p : Position) : Checker Unit := do
  let s ← get
  match s.env.scopes.declare name entity p with
  | .ok scopes => set { s with env := { s.env with scopes } }
  | .error d => throw d

/-- Declares a new variable. -/
def declareVariable (name : String) (readOnly : Bool) (type : Ty) (p : Position) :
    Checker Variable := do
  let v : Variable := ⟨← freshId, name, readOnly, type⟩
  declare name (.variable v) p
  return v

/-- The state with its scopes changed. -/
def mapScopes (f : Scopes → Scopes) (s : State) : State :=
  { s with env := { s.env with scopes := f s.env.scopes } }

/-- Runs a checker in a scope of its own, which is left whatever happens. -/
def inScope (kind : ScopeKind) (body : Checker α) : Checker α := fun s =>
  match body (mapScopes (·.push kind) s) with
  | .ok a s' => .ok a (mapScopes Scopes.pop s')
  | .error d s' => .error d (mapScopes Scopes.pop s')

end Checker

open Checker

/-- An expression whose type must be that of truth values. -/
def condition (e : Expr) : Checker Typed.Expr := ask fun env => do
  let test ← expr env e
  env.expectBool test.type e.span.start
  return test

/-- An expression whose type must be that of integers. -/
def integer (e : Expr) : Checker Typed.Expr := ask fun env => do
  let n ← expr env e
  env.expectInt n.type e.span.start
  return n

/-- What is wrong with assigning to an expression, if anything is. Only variables that are not
constant, elements of arrays and fields reached without `?.` are places. -/
def targetFault? : Typed.Expr → Option Cause
  | .variable v => if v.readOnly then some (.readOnly v.name false) else none
  | .function f => some (.readOnly f.name true)
  | .subscript _ _ _ => none
  | .member _ _ false _ => none
  | _ => some .badTarget

/-- An expression that is assigned to. -/
def target (env : Env) (e : Expr) : Except Diagnostic Typed.Expr := do
  let t ← expr env e
  match targetFault? t with
  | some cause => throw ⟨cause, e.span.start⟩
  | none => return t

/-- A target and the value assigned to it. -/
def assignment (t v : Expr) : Checker (Typed.Expr × Typed.Expr) := ask fun env => do
  let place ← target env t
  let source ← expr env v
  env.expectAssignable source place.type v.span.start
  return (place, source)

/-- A target that is counted up or down. -/
def counted (t : Expr) (p : Position) : Checker Typed.Expr := ask fun env => do
  let place ← target env t
  env.expectInt place.type p
  return place

/-- A `break` must have a loop around it. -/
def breakLoop (p : Position) : Checker Typed.Stmt := ask fun env =>
  if env.scopes.inLoop then .ok .breakLoop else .error ⟨.strayBreak, p⟩

/-- A `return` must stand in a function, and return a value if and only if the function does. -/
def giveBack (value : Option Expr) (p : Position) : Checker Typed.Stmt := ask fun env =>
  match env.scopes.function with
  | none => .error ⟨.badReturn "return can only appear in a function", p⟩
  | some f =>
    match value with
    | some e =>
      if f.result = .void then .error ⟨.badReturn "cannot return a value from this function", p⟩
      else do
        let v ← expr env e
        env.expectAssignable v f.result e.span.start
        return .giveBack (some v)
    | none =>
      if f.result = .void then .ok (.giveBack none)
      else .error ⟨.badReturn "something should be returned", p⟩

/-- The fields of a struct with their types. -/
def fields (env : Env) : List Binding → Except Diagnostic (List Field)
  | [] => return []
  | b :: bs => do
    let type ← resolve env b.type
    return ⟨b.name, type⟩ :: (← fields env bs)

/-- A struct is declared before its fields are looked at, so that they may mention it. -/
def struct (name : String) (bindings : List Binding) (p : Position) : Checker Typed.Stmt := do
  let id := (← get).env.types.nextId
  modify fun s => { s with env := { s.env with types := s.env.types.declare name } }
  declare name (.type (.struct id)) p
  let fields ← ask fun env => fields env bindings
  let s ← get
  match s.env.types.define id fields with
  | .ok types => set { s with env := { s.env with types } }
  | .error cause => throw ⟨cause, p⟩
  return .struct id

/-- The types of parameters, and of the result: nothing is returned unless a type is written. -/
def signature (env : Env) (params : List Binding) (result : Option TypeExpr) :
    Except Diagnostic (List Ty × Ty) := do
  let params ← resolveAll env (params.map (·.type))
  match result with
  | some t => return (params, ← resolve env t)
  | none => return (params, .void)

/-- Declares the parameters of a function. -/
def parameters : List Binding → List Ty → Checker (List Variable)
  | b :: bs, t :: ts => do
    let v ← declareVariable b.name false t b.span.start
    return v :: (← parameters bs ts)
  | _, _ => return []

/-- Declares a function, so that its body may call it. -/
def function (name : String) (params : List Binding) (result : Option TypeExpr) (p : Position) :
    Checker Function := do
  let (params, result) ← ask fun env => signature env params result
  let f : Function := ⟨← freshId, name, params, result⟩
  declare name (.function f) p
  return f

/-- A branch with or without an alternative. -/
def typedBranch (test : Typed.Expr) (yes : List Typed.Stmt) : Option (List Typed.Stmt) → Typed.Stmt
  | some no => .branch test yes no
  | none => .shortBranch test yes

mutual

/-- The typed statement, or the first fault in it. -/
def stmt : Stmt → Checker Typed.Stmt
  | .declare name isConstant byReference value span => do
    let value ← ask fun env => expr env value
    let v ← declareVariable name isConstant value.type span.start
    return .declare v byReference value
  | .struct name bindings span => struct name bindings span.start
  | .function name params result (.mk body _) span => do
    let f ← function name params result span.start
    let (params, body) ← inScope (.function f) do
      let params ← parameters params f.params
      return (params, ← stmts body)
    return .function f params body
  | .assign t v byReference _ => do
    let (place, source) ← assignment t v
    return .assign place source byReference
  | .increment t span => do return .increment (← counted t span.start)
  | .decrement t span => do return .decrement (← counted t span.start)
  | .breakLoop span => breakLoop span.start
  | .giveBack value span => giveBack value span.start
  | .branch test (.mk body _) rest _ => do
    let test ← condition test
    let yes ← inScope .block (stmts body)
    return typedBranch test yes (← alternative rest)
  | .whileLoop test (.mk body _) _ => do
    let test ← condition test
    return .whileLoop test (← inScope .loop (stmts body))
  | .repeatLoop count (.mk body _) _ => do
    let count ← integer count
    return .repeatLoop count (← inScope .loop (stmts body))
  | .rangeLoop iterator low op high (.mk body _) span => do
    let low ← integer low
    let high ← integer high
    let (v, body) ← inScope .loop do
      let v ← declareVariable iterator true .int span.start
      return (v, ← stmts body)
    return .rangeLoop v low op high body
  | .eachLoop iterator e (.mk body _) span => do
    let collection ← ask fun env => expr env e
    let element ← ask fun env => expectArray env collection.type e.span.start
    let (v, body) ← inScope .loop do
      let v ← declareVariable iterator true element span.start
      return (v, ← stmts body)
    return .eachLoop v collection body
  | .perform e _ => do return .perform (← ask fun env => expr env e)

/-- What follows the first arm of a branch: a chained branch is an alternative of one statement. -/
def alternative : Alternative → Checker (Option (List Typed.Stmt))
  | .nothing => return none
  | .otherwise (.mk body _) => do return some (← inScope .block (stmts body))
  | .elseIf test (.mk body _) rest _ => do
    let test ← condition test
    let yes ← inScope .block (stmts body)
    return some [typedBranch test yes (← alternative rest)]

/-- Several typed statements, from first to last. -/
def stmts : List Stmt → Checker (List Typed.Stmt)
  | [] => return []
  | s :: rest => do
    let s ← stmt s
    return s :: (← stmts rest)

end

/-- The state before a program is checked. -/
def State.initial (lib : Library) : State := ⟨⟨lib.scopes, .empty⟩, lib.nextId⟩

/-- The typed program, or the first fault in it. -/
def program (lib : Library) (b : Block) : Except Diagnostic Typed.Program :=
  match stmts b.body (.initial lib) with
  | .ok statements s => .ok ⟨statements, s.env.types⟩
  | .error d _ => .error d

end Quill.Check
