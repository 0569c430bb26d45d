import Quill.Entity

/-!
# Scopes

Names are looked up in a stack of scopes, the innermost first. A scope also knows whether a loop of
the same function is around it, and which function that is; both are settled when it is entered.
The outermost scope is never left.
-/

namespace Quill

/-- What a scope is the body of. -/
inductive ScopeKind where
  | block
  | loop
  | function (f : Function)
deriving DecidableEq, Repr, Inhabited

/-- The names of one scope, the latest first, and what is around it. -/
structure Scope where
  names : List (String × Entity)
  inLoop : Bool
  function : Option Function
deriving DecidableEq, Repr, Inhabited

namespace Scope

/-- The outermost scope, with no name in it. -/
def root : Scope := ⟨[], false, none⟩

/-- The latest binding of a name in this scope. -/
def find? (s : Scope) (name : String) : Option Entity := s.names.lookup name

/-- The scope with one name more. -/
def bind (s : Scope) (name : String) (entity : Entity) : Scope :=
  { s with names := (name, entity) :: s.names }

/-- An empty scope inside this one. A loop ends at the function around it. -/
def child (s : Scope) : ScopeKind → Scope
  | .block => ⟨[], s.inLoop, s.function⟩
  | .loop => ⟨[], true, s.function⟩
  | .function f => ⟨[], false, some f⟩

end Scope

/-- The open scopes, of which there is always one. -/
structure Scopes where
  inner : Scope
  outer : List Scope
deriving DecidableEq, Repr, Inhabited

namespace Scopes

/-- The outermost scope alone. -/
def root : Scopes := ⟨.root, []⟩

/-- All open scopes, the innermost first. -/
def toList (s : Scopes) : List Scope := s.inner :: s.outer

/-- The number of open scopes. -/
def depth (s : Scopes) : Nat := s.toList.length

/-- Whether a loop of the current function is open. -/
def inLoop (s : Scopes) : Bool := s.inner.inLoop

/-- The innermost function that is open. -/
def function (s : Scopes) : Option Function := s.inner.function

/-- What a name stands for: its latest binding in the innermost scope that binds it. -/
def find? (s : Scopes) (name : String) : Option Entity := s.toList.findSome? (·.find? name)

/-- What a name used at `p` stands for. -/
def lookup (s : Scopes) (name : String) (p : Position) : Except Diagnostic Entity :=
  match s.find? name with
  | some entity => .ok entity
  | none => .error ⟨.undeclared name, p⟩

/-- Binds a name in the innermost scope, in place of what it stood for there. -/
def define (s : Scopes) (name : String) (entity : Entity) : Scopes :=
  { s with inner := s.inner.bind name entity }

/-- Binds a name declared at `p`, which the innermost scope must not bind already. -/
def declare (s : Scopes) (name : String) (entity : Entity) (p : Position) :
    Except Diagnostic Scopes :=
  match s.inner.find? name with
  | some _ => .error ⟨.redeclared name, p⟩
  | none => .ok (s.define name entity)

/-- Enters a scope. -/
def push (s : Scopes) (kind : ScopeKind) : Scopes := ⟨s.inner.child kind, s.toList⟩

/-- Leaves the innermost scope, unless it is the only one. -/
def pop (s : Scopes) : Scopes :=
  match s.outer with
  | [] => s
  | t :: ts => ⟨t, ts⟩

end Scopes

end Quill
