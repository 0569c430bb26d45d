import Quill.Proofs.Nodes

/-!
# What expressions mean

An evaluator of typed expressions, with everything the language leaves to its surroundings as a
parameter. A `Meaning` says what variables, functions, calls, new structs, arrays, elements, fields
and lengths are, as partial functions of the values of their parts; what operators do to integers,
texts, truth values and floats is fixed, and is what folding does to literals.

Evaluation goes from left to right, `?:`, `||`, `&&` and `??` leave out what they do not need, and
each call and each new struct is an event. The meaning at a point may depend on the events before
it, so that a call may have effects on what comes later.

Results:
* `Meaning.binary_of_fold`, `Meaning.unary_of_fold`: an operator on values that are literals gives
  what folding gives.
* `Traced.bind_eq_some`: how two computations follow each other.
-/

namespace Quill

/-- The operators whose result is a truth value, whatever they compare. -/
def BinaryOp.isComparison : BinaryOp → Bool
  | .less | .lessEquals | .equals | .notEquals | .greaterEquals | .greater => true
  | _ => false

namespace Typed

variable {α : Type}

/-! ## Values and events -/

/-- A value: that of a literal, the absent one, or one that only the surroundings know. -/
inductive Value (α : Type) where
  | literal (l : Literal)
  | absent
  | other (x : α)

/-- One of two alternatives by a truth value, and a third where there is none. -/
def Value.choose {β : Type} (yes no stuck : β) : Value α → β
  | .literal (.bool true) => yes
  | .literal (.bool false) => no
  | _ => stuck

/-- What evaluation leaves behind: a call of a value, or a new struct, with the arguments. -/
inductive Event (α : Type) where
  | call (callee : Value α) (args : List (Value α))
  | construct (id : StructId) (args : List (Value α))

/-- What the surroundings make of the expressions that they decide. -/
structure Meaning (α : Type) where
  valueOf : Variable → Option (Value α)
  function : Function → Option (Value α)
  call : Value α → List (Value α) → Option (Value α)
  construct : StructId → List (Value α) → Option (Value α)
  array : Ty → List (Value α) → Option (Value α)
  emptyArray : Ty → Value α
  subscript : Value α → Value α → Option (Value α)
  member : Value α → String → Bool → Option (Value α)
  length : Value α → Option (Value α)
  /-- `some` of a value. -/
  present : Value α → Option (Value α)
  /-- What `??` makes of a left operand that is not absent. -/
  unwrap : Value α → Option (Value α)
  /-- The comparisons, of values that are not literals of one kind. -/
  compare : BinaryOp → Value α → Value α → Option (Value α)
  /-- The operators on floats, where folding gives no result. -/
  float : BinaryOp → Float → Float → Option (Value α)
  length_emptyArray : ∀ t, length (emptyArray t) = some (.literal (.int 0))

namespace Meaning

/-- An operator on two values, both of which are needed. -/
def binary (M : Meaning α) (op : BinaryOp) : Value α → Value α → Option (Value α)
  | .literal (.int a), .literal (.int b) => (Literal.foldInt? op a b).map .literal
  | .literal (.float a), .literal (.float b) =>
    ((Literal.foldFloat? op a b).map .literal).or (M.float op a b)
  | .literal (.string a), .literal (.string b) => (Literal.foldString? op a b).map .literal
  | .literal (.bool a), .literal (.bool b) => (Literal.foldBool? op a b).map .literal
  | a, b => if op.isComparison then M.compare op a b else none

/-- An operator on one value. -/
def unary (M : Meaning α) (op : UnaryOp) (a : Value α) : Option (Value α) :=
  match op, a with
  | .length, a => M.length a
  | .some, a => M.present a
  | op, .literal a => (Literal.foldUnary? op a).map .literal
  | _, _ => none

/-- Whether the left operand leaves something to the right one. -/
def needsRight : BinaryOp → Value α → Bool
  | .or, .literal (.bool a) => !a
  | .and, .literal (.bool a) => a
  | .coalesce, .absent => true
  | .coalesce, _ => false
  | _, _ => true

/-- The result when the left operand leaves nothing to the right one. -/
def alone (M : Meaning α) (op : BinaryOp) (a : Value α) : Option (Value α) :=
  if op = .coalesce then M.unwrap a else some a

/-- The result when both operands are needed. -/
def both (M : Meaning α) (op : BinaryOp) (a b : Value α) : Option (Value α) :=
  if op = .coalesce then some b else M.binary op a b

theorem binary_of_fold (M : Meaning α) {op : BinaryOp} {a b c : Literal}
    (h : Literal.foldBinary? op a b = some c) :
    M.binary op (.literal a) (.literal b) = some (.literal c) := by
  cases a <;> cases b <;> simp only [Literal.foldBinary?, reduceCtorEq] at h <;> simp [binary, h]

theorem unary_of_fold (M : Meaning α) {op : UnaryOp} {a c : Literal}
    (h : Literal.foldUnary? op a = some c) : M.unary op (.literal a) = some (.literal c) := by
  cases op with
  | negate | not => simp [unary, h]
  | length | some => simp [Literal.foldUnary?] at h

end Meaning

/-- A meaning to try things on: the variables have the given values, a function is its number, and
every call gives 5. -/
def Meaning.sample (valueOf : Variable → Option (Value Nat)) : Meaning Nat where
  valueOf := valueOf
  function f := some (.other f.id)
  call _ _ := some (.literal (.int 5))
  construct id _ := some (.other id.index)
  array _ _ := none
  emptyArray _ := .other 0
  subscript _ _ := none
  member _ _ _ := none
  length _ := some (.literal (.int 0))
  present a := some a
  unwrap a := some a
  compare _ _ _ := none
  float _ _ _ := none
  length_emptyArray _ := rfl

/-! ## Computations that record events -/

/-- A computation that may fail, and records events. It may depend on the events before it. -/
def Traced (α β : Type) : Type := List (Event α) → Option (β × List (Event α))

namespace Traced

variable {β γ : Type} {x : Traced α β} {f : β → Traced α γ} {h t : List (Event α)}

instance : Monad (Traced α) where
  pure b _ := some (b, [])
  bind x f h := do
    let (b, t) ← x h
    let (c, u) ← f b (h ++ t)
    return (c, t ++ u)

/-- No result. -/
def fail : Traced α β := fun _ => none

/-- What the meaning at this point gives, recording the events. -/
def answer (M : List (Event α) → Meaning α) (f : Meaning α → Option β)
    (events : List (Event α)) : Traced α β := fun h => (f (M h)).map (·, events)

theorem bind_eq_some {c : γ} : (x >>= f) h = some (c, t) ↔
    ∃ b u w, x h = some (b, u) ∧ f b (h ++ u) = some (c, w) ∧ t = u ++ w := by
  change (Option.bind (x h) fun p => Option.bind (f p.1 (h ++ p.2)) fun q =>
    some (q.1, p.2 ++ q.2)) = some (c, t) ↔ _
  simp only [Option.bind_eq_some_iff, Prod.exists, Option.some.injEq, Prod.mk.injEq]
  constructor
  · rintro ⟨b, u, hx, _, w, hf, rfl, rfl⟩
    exact ⟨b, u, w, hx, hf, rfl⟩
  · rintro ⟨b, u, w, hx, hf, rfl⟩
    exact ⟨b, u, hx, c, w, hf, rfl, rfl⟩

theorem pure_bind (b : β) (f : β → Traced α γ) : (pure b >>= f) = f b := by
  funext h
  change (Option.bind (some (b, [])) fun p => Option.bind (f p.1 (h ++ p.2)) fun q =>
    some (q.1, p.2 ++ q.2)) = f b h
  simp

theorem answer_eq_some {M : List (Event α) → Meaning α} {f : Meaning α → Option β}
    {events : List (Event α)} {b : β} :
    answer M f events h = some (b, t) ↔ f (M h) = some b ∧ t = events := by
  simp only [answer, Option.map_eq_some_iff, Prod.mk.injEq]
  constructor
  · rintro ⟨b, hb, rfl, rfl⟩
    exact ⟨hb, rfl⟩
  · rintro ⟨hb, rfl⟩
    exact ⟨b, hb, rfl, rfl⟩

end Traced

/-! ## Evaluation -/

namespace Expr

mutual

/-- Evaluates an expression. -/
def run (M : List (Event α) → Meaning α) : Expr → Traced α (Value α)
  | .literal l => pure (.literal l)
  | .conditional test yes no _ => do
    let a ← run M test
    a.choose (run M yes) (run M no) .fail
  | .binary op left right _ => do
    let a ← run M left
    if Meaning.needsRight op a then
      let b ← run M right
      .answer M (·.both op a b) []
    else
      .answer M (·.alone op a) []
  | .unary op operand _ => do
    let a ← run M operand
    .answer M (·.unary op a) []
  | .array elements t => do
    let xs ← runAll M elements
    .answer M (·.array t xs) []
  | .emptyArray t => .answer M (fun M => some (M.emptyArray t)) []
  | .absent _ => pure .absent
  | .subscript items index _ => do
    let a ← run M items
    let i ← run M index
    .answer M (·.subscript a i) []
  | .member object field chained _ => do
    let a ← run M object
    .answer M (·.member a field chained) []
  | .call callee args _ => do
    let f ← run M callee
    let xs ← runAll M args
    .answer M (·.call f xs) [.call f xs]
  | .construct id args => do
    let xs ← runAll M args
    .answer M (·.construct id xs) [.construct id xs]
  | .variable v => .answer M (·.valueOf v) []
  | .function f => .answer M (·.function f) []

/-- Evaluates the expressions of a list, in order. -/
def runAll (M : List (Event α) → Meaning α) : List Expr → Traced α (List (Value α))
  | [] => pure []
  | e :: es => do
    let x ← run M e
    let xs ← runAll M es
    return x :: xs

end

/-- The value of an expression, where its meaning does not depend on events. -/
def eval (M : Meaning α) (e : Expr) : Option (Value α) := (e.run (fun _ => M) []).map Prod.fst

/-- The values of the expressions of a list. -/
def evalAll (M : Meaning α) (es : List Expr) : Option (List (Value α)) :=
  (runAll (fun _ => M) es []).map Prod.fst

end Expr

end Typed

end Quill
