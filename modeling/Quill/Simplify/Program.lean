import Quill.Simplify.Expr

/-!
# Simplifying programs

A statement becomes the statements that are left of it: the live arm of a branch that is settled,
nothing for a loop that never runs and for an assignment of a variable to itself, and otherwise the
statement with its parts simplified. One pass is all there is.
-/

namespace Quill.Typed

namespace Stmt

/-- Whether both are the same variable. -/
def isSameVariable : Expr → Expr → Bool
  | .variable v, .variable w => v.id = w.id
  | _, _ => false

/-- Whether the literal bounds make a range without members. -/
def isEmptyRange (low : Expr) (op : RangeOp) (high : Expr) : Bool :=
  match low, high with
  | .literal (.int a), .literal (.int b) =>
    match op with
    | .exclusive => b ≤ a
    | .inclusive => b < a
  | _, _ => false

/-- Whether the count is a literal that asks for no round. -/
def isNoRound : Expr → Bool
  | .literal (.int n) => n ≤ 0
  | _ => false

mutual

/-- What is left of a statement. -/
def simplify : Stmt → List Stmt
  | .declare v byReference value => [.declare v byReference value.simplify]
  | .struct id => [.struct id]
  | .function f params body => [.function f params (simplifyAll body)]
  | .assign target source byReference =>
    let target := target.simplify
    let source := source.simplify
    if isSameVariable target source then [] else [.assign target source byReference]
  | .increment target => [.increment target.simplify]
  | .decrement target => [.decrement target.simplify]
  | .breakLoop => [.breakLoop]
  | .giveBack value => [.giveBack (value.map Expr.simplify)]
  | .branch test yes no =>
    let test := test.simplify
    if test.isBool true then simplifyAll yes
    else if test.isBool false then simplifyAll no
    else [.branch test (simplifyAll yes) (simplifyAll no)]
  | .shortBranch test yes =>
    let test := test.simplify
    if test.isBool true then simplifyAll yes
    else if test.isBool false then []
    else [.shortBranch test (simplifyAll yes)]
  | .whileLoop test body =>
    let test := test.simplify
    if test.isBool false then [] else [.whileLoop test (simplifyAll body)]
  | .repeatLoop count body =>
    let count := count.simplify
    if isNoRound count then [] else [.repeatLoop count (simplifyAll body)]
  | .rangeLoop iterator low op high body =>
    let low := low.simplify
    let high := high.simplify
    if isEmptyRange low op high then []
    else [.rangeLoop iterator low op high (simplifyAll body)]
  | .eachLoop iterator collection body =>
    let collection := collection.simplify
    if collection.isEmptyArray then [] else [.eachLoop iterator collection (simplifyAll body)]
  | .perform call => [.perform call.simplify]

/-- What is left of a list of statements. -/
def simplifyAll : List Stmt → List Stmt
  | [] => []
  | s :: rest => s.simplify ++ simplifyAll rest

end

end Stmt

/-- The program, simplified; the structs stay as they are. -/
def Program.simplify (p : Program) : Program := ⟨Stmt.simplifyAll p.statements, p.types⟩

end Quill.Typed
