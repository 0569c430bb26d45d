import Quill.Proofs.Derivation
import Quill.Proofs.Place

/-!
# Simplification and execution

Executions of typed statements, as a relation between the store before, the store after, the events
in between, and the way of ending: normally, by a `break`, or by a `return` with its value. The
store holds the values of variables by their identity. Expressions are evaluated without effects; a
call that stands as a statement is an event. Loops run over a list of items that is settled when
they start, except for `while`.

What an element or a field of a variable is, and what assigning to it does to the store, is left
to the surroundings, as is all that a `Meaning` leaves to them.

A simplified statement may be several, or none: a branch that is settled leaves its arm in the list
around it, a `break` in it included.

Results:
* `Exec.append`, `Exec.append_left`: executions of lists of statements.
* `Exec.simplify`: every execution of a statement is one of what is left of it.
* **`Check.exec_simplify`**: every execution of a checked program, and of the functions in it.
-/

namespace Quill

/-- The number of words in a range. -/
def RangeOp.count (op : RangeOp) (a b : Int64) : Nat :=
  match op with
  | .exclusive => (b.toInt - a.toInt).toNat
  | .inclusive => (b.toInt + 1 - a.toInt).toNat

/-- The words in a range, in order. -/
def RangeOp.members (op : RangeOp) (a b : Int64) : List Int64 :=
  (List.range (op.count a b)).map fun i => Int64.ofInt (a.toInt + i)

theorem RangeOp.members_eq_nil {op : RangeOp} {a b : Int64} (h : b < a ∨ op = .exclusive ∧ b ≤ a) :
    op.members a b = [] := by
  simp only [Int64.lt_iff_toInt_lt, Int64.le_iff_toInt_le] at h
  have hcount : op.count a b = 0 := by
    cases op with
    | exclusive =>
      rw [RangeOp.count]
      omega
    | inclusive =>
      simp only [reduceCtorEq, false_and, or_false] at h
      rw [RangeOp.count]
      omega
  rw [RangeOp.members, hcount]
  rfl

namespace Typed

variable {α : Type}

/-! ## Executions -/

/-- The values of variables, by identity. -/
abbrev Store (α : Type) : Type := Nat → Option (Value α)

/-- The store with another value of a variable. -/
def Store.set (σ : Store α) (id : Nat) (x : Value α) : Store α := Function.update σ id (some x)

/-- The surroundings in which statements are executed. What expressions mean may depend on the
store; a variable means its value in it. -/
structure Machine (α : Type) where
  meaning : Store α → Meaning α
  valueOf_meaning : ∀ σ v, (meaning σ).valueOf v = σ v.id
  /-- The elements that a loop over a value takes. -/
  items : Store α → Value α → Option (List (Value α))
  items_emptyArray : ∀ σ t, items σ ((meaning σ).emptyArray t) = some []
  /-- Assigns to an element or a field, by reference or not. -/
  update : Bool → Place α → Value α → Store α → Option (Store α)

/-- Assigns to a place. -/
def Machine.write (M : Machine α) (byReference : Bool) (p : Place α) (x : Value α) (σ : Store α) :
    Option (Store α) :=
  match p with
  | .variable id => some (σ.set id x)
  | p => M.update byReference p x σ

/-- How an execution ends. -/
inductive Ending (α : Type) where
  | normal
  | broke
  | returned (value : Option (Value α))

/-- How a loop ends when its body ends in the given way. -/
def Ending.ofLoop : Ending α → Ending α
  | .broke => .normal
  | e => e

/-- What can be executed: a statement, a list of them, or the rounds of a loop that are left, each
with the value of the iterator. -/
inductive Task (α : Type) where
  | stmt (s : Stmt)
  | block (ss : List Stmt)
  | rounds (iterator : Option Variable) (items : List (Value α)) (body : List Stmt)

/-- The store at the start of a round. -/
def Store.enter (σ : Store α) (iterator : Option Variable) (x : Value α) : Store α :=
  match iterator with
  | some v => σ.set v.id x
  | none => σ

/-- **Executions.** `Exec M c σ τ t e`: the task `c` leads from the store `σ` to the store `τ`,
records the events `t`, and ends as `e` says. -/
inductive Exec (M : Machine α) :
    Task α → Store α → Store α → List (Event α) → Ending α → Prop
  | nil {σ} : Exec M (.block []) σ σ [] .normal
  | cons {s ss σ τ ρ t u e} (first : Exec M (.stmt s) σ τ t .normal)
      (rest : Exec M (.block ss) τ ρ u e) : Exec M (.block (s :: ss)) σ ρ (t ++ u) e
  | leave {s ss σ τ t e} (first : Exec M (.stmt s) σ τ t e) (he : e ≠ .normal) :
      Exec M (.block (s :: ss)) σ τ t e
  | declare {v byReference value σ x} (hx : value.eval (M.meaning σ) = some x) :
      Exec M (.stmt (.declare v byReference value)) σ (σ.set v.id x) [] .normal
  | struct {id σ} : Exec M (.stmt (.struct id)) σ σ [] .normal
  | function {f params body σ} : Exec M (.stmt (.function f params body)) σ σ [] .normal
  | assign {target source byReference σ τ p x} (hp : target.place (M.meaning σ) = some p)
      (hx : source.eval (M.meaning σ) = some x) (hw : M.write byReference p x σ = some τ) :
      Exec M (.stmt (.assign target source byReference)) σ τ [] .normal
  | increment {target σ τ p n m} (hp : target.place (M.meaning σ) = some p)
      (hn : target.eval (M.meaning σ) = some (.literal (.int n))) (hm : Number.add? n 1 = some m)
      (hw : M.write false p (.literal (.int m)) σ = some τ) :
      Exec M (.stmt (.increment target)) σ τ [] .normal
  | decrement {target σ τ p n m} (hp : target.place (M.meaning σ) = some p)
      (hn : target.eval (M.meaning σ) = some (.literal (.int n))) (hm : Number.sub? n 1 = some m)
      (hw : M.write false p (.literal (.int m)) σ = some τ) :
      Exec M (.stmt (.decrement target)) σ τ [] .normal
  | breakLoop {σ} : Exec M (.stmt .breakLoop) σ σ [] .broke
  | giveBack {e σ x} (hx : e.eval (M.meaning σ) = some x) :
      Exec M (.stmt (.giveBack (some e))) σ σ [] (.returned (some x))
  | giveNothing {σ} : Exec M (.stmt (.giveBack none)) σ σ [] (.returned none)
  | call {callee args type σ f xs} (hf : callee.eval (M.meaning σ) = some f)
      (hxs : Expr.evalAll (M.meaning σ) args = some xs) :
      Exec M (.stmt (.perform (.call callee args type))) σ σ [.call f xs] .normal
  | construct {id args σ xs} (hxs : Expr.evalAll (M.meaning σ) args = some xs) :
      Exec M (.stmt (.perform (.construct id args))) σ σ [.construct id xs] .normal
  | branch {test yes no σ τ t e b} (hb : test.eval (M.meaning σ) = some (.literal (.bool b)))
      (arm : Exec M (.block (if b then yes else no)) σ τ t e) :
      Exec M (.stmt (.branch test yes no)) σ τ t e
  | shortBranch {test yes σ τ t e b} (hb : test.eval (M.meaning σ) = some (.literal (.bool b)))
      (arm : Exec M (.block (if b then yes else [])) σ τ t e) :
      Exec M (.stmt (.shortBranch test yes)) σ τ t e
  | whileStop {test body σ} (hb : test.eval (M.meaning σ) = some (.literal (.bool false))) :
      Exec M (.stmt (.whileLoop test body)) σ σ [] .normal
  | whileRound {test body σ τ ρ t u e} (hb : test.eval (M.meaning σ) = some (.literal (.bool true)))
      (round : Exec M (.block body) σ τ t .normal)
      (rest : Exec M (.stmt (.whileLoop test body)) τ ρ u e) :
      Exec M (.stmt (.whileLoop test body)) σ ρ (t ++ u) e
  | whileLeave {test body σ τ t e} (hb : test.eval (M.meaning σ) = some (.literal (.bool true)))
      (round : Exec M (.block body) σ τ t e) (he : e ≠ .normal) :
      Exec M (.stmt (.whileLoop test body)) σ τ t e.ofLoop
  | repeatLoop {count body σ τ t e n} (hn : count.eval (M.meaning σ) = some (.literal (.int n)))
      (run : Exec M (.rounds none (List.replicate n.toInt.toNat .absent) body) σ τ t e) :
      Exec M (.stmt (.repeatLoop count body)) σ τ t e
  | rangeLoop {v low op high body σ τ t e a b}
      (ha : low.eval (M.meaning σ) = some (.literal (.int a)))
      (hb : high.eval (M.meaning σ) = some (.literal (.int b)))
      (run : Exec M (.rounds (some v) ((op.members a b).map fun n => .literal (.int n)) body)
        σ τ t e) :
      Exec M (.stmt (.rangeLoop v low op high body)) σ τ t e
  | eachLoop {v collection body σ τ t e c xs} (hc : collection.eval (M.meaning σ) = some c)
      (hxs : M.items σ c = some xs) (run : Exec M (.rounds (some v) xs body) σ τ t e) :
      Exec M (.stmt (.eachLoop v collection body)) σ τ t e
  | stop {iterator body σ} : Exec M (.rounds iterator [] body) σ σ [] .normal
  | round {iterator x xs body σ τ ρ t u e}
      (first : Exec M (.block body) (σ.enter iterator x) τ t .normal)
      (rest : Exec M (.rounds iterator xs body) τ ρ u e) :
      Exec M (.rounds iterator (x :: xs) body) σ ρ (t ++ u) e
  | roundLeave {iterator x xs body σ τ t e}
      (first : Exec M (.block body) (σ.enter iterator x) τ t e) (he : e ≠ .normal) :
      Exec M (.rounds iterator (x :: xs) body) σ τ t e.ofLoop

/-! ## Lists of statements -/

namespace Exec

variable {M : Machine α} {s : Stmt} {ss rr : List Stmt} {σ τ ρ : Store α}
  {t u : List (Event α)} {e : Ending α}

/-- One list after another that ends normally. -/
theorem append (h : Exec M (.block ss) σ τ t .normal) (h' : Exec M (.block rr) τ ρ u e) :
    Exec M (.block (ss ++ rr)) σ ρ (t ++ u) e := by
  induction ss generalizing σ t with
  | nil =>
    cases h
    exact h'
  | cons s ss ih =>
    cases h with
    | cons first rest =>
      rw [List.append_assoc]
      exact .cons first (ih rest)
    | leave _ he => exact absurd rfl he

/-- What comes after a list that does not end normally is not executed. -/
theorem append_left (h : Exec M (.block ss) σ τ t e) (he : e ≠ .normal) (rr : List Stmt) :
    Exec M (.block (ss ++ rr)) σ τ t e := by
  induction ss generalizing σ t with
  | nil =>
    cases h
    exact absurd rfl he
  | cons s ss ih =>
    cases h with
    | cons first rest => exact .cons first (ih rest)
    | leave first _ => exact .leave first he

theorem single_iff : Exec M (.block [s]) σ τ t e ↔ Exec M (.stmt s) σ τ t e := by
  constructor
  · intro h
    cases h with
    | cons first rest =>
      cases rest
      rwa [List.append_nil]
    | leave first _ => exact first
  · intro h
    by_cases he : e = .normal
    · subst he
      simpa using h.cons .nil
    · exact h.leave he

end Exec

/-! ## What is left of a task -/

/-- The one property holds of every node of the expressions of the task, the other of every
statement of it. -/
def Task.Everywhere (P : Expr → Prop) (Q : Stmt → Prop) : Task α → Prop
  | .stmt s => s.Everywhere P Q
  | .block ss | .rounds _ _ ss => ∀ s ∈ ss, s.Everywhere P Q

/-- What is left of a task. -/
def Task.simplify : Task α → Task α
  | .stmt s => .block s.simplify
  | .block ss => .block (Stmt.simplifyAll ss)
  | .rounds iterator items body => .rounds iterator items (Stmt.simplifyAll body)

theorem Expr.eq_of_isBool_of_eval {N : Meaning α} {test : Expr} {b c : Bool}
    (h : test.isBool c = true) (hb : test.eval N = some (.literal (.bool b))) : b = c := by
  cases eq_bool_of_isBool h
  cases hb
  rfl

theorem Expr.eval_variable (N : Meaning α) (v : Variable) :
    eval N (.variable v) = N.valueOf v := by
  unfold eval
  rw [run, Traced.answer]
  cases N.valueOf v <;> rfl

/-- Assigning its own value to a variable changes nothing. -/
theorem Machine.write_self {M : Machine α} {target source : Expr} {byReference : Bool}
    {σ τ : Store α} {p : Place α} {x : Value α} (hsame : Stmt.isSameVariable target source = true)
    (hp : target.place (M.meaning σ) = some p) (hx : source.eval (M.meaning σ) = some x)
    (hw : M.write byReference p x σ = some τ) : τ = σ := by
  obtain ⟨v, w, rfl, rfl, hid⟩ := Stmt.eq_variable_of_isSameVariable hsame
  cases hp
  cases hw
  rw [Expr.eval_variable, M.valueOf_meaning, ← hid] at hx
  rw [Store.set, ← hx, Function.update_eq_self]

/-! ## Executions of what is left -/

namespace Exec

variable {M : Machine α} {σ τ ρ : Store α} {t u : List (Event α)} {e : Ending α}
  {test : Expr} {yes no body : List Stmt} {b : Bool}

theorem simplify_assign {target source : Expr} {byReference : Bool} {p : Place α} {x : Value α}
    (hp : target.simplify.place (M.meaning σ) = some p)
    (hx : source.simplify.eval (M.meaning σ) = some x) (hw : M.write byReference p x σ = some τ) :
    Exec M (.block (Stmt.simplify (.assign target source byReference))) σ τ [] .normal := by
  rw [Stmt.simplify]
  split_ifs with hsame
  · rw [Machine.write_self hsame hp hx hw]
    exact .nil
  · exact single_iff.mpr (.assign hp hx hw)

theorem simplify_branch (hb : test.simplify.eval (M.meaning σ) = some (.literal (.bool b)))
    (arm : Exec M (.block (Stmt.simplifyAll (if b then yes else no))) σ τ t e) :
    Exec M (.block (Stmt.simplify (.branch test yes no))) σ τ t e := by
  rw [Stmt.simplify]
  split_ifs with hyes hno
  · obtain rfl := Expr.eq_of_isBool_of_eval hyes hb
    exact arm
  · obtain rfl := Expr.eq_of_isBool_of_eval hno hb
    exact arm
  · refine single_iff.mpr (.branch hb ?_)
    cases b <;> exact arm

theorem simplify_shortBranch (hb : test.simplify.eval (M.meaning σ) = some (.literal (.bool b)))
    (arm : Exec M (.block (Stmt.simplifyAll (if b then yes else []))) σ τ t e) :
    Exec M (.block (Stmt.simplify (.shortBranch test yes))) σ τ t e := by
  rw [Stmt.simplify]
  split_ifs with hyes hno
  · obtain rfl := Expr.eq_of_isBool_of_eval hyes hb
    exact arm
  · obtain rfl := Expr.eq_of_isBool_of_eval hno hb
    exact arm
  · refine single_iff.mpr (.shortBranch hb ?_)
    cases b <;> exact arm

/-- A `while` whose test holds is not dropped. -/
theorem simplify_whileLoop (hb : test.simplify.eval (M.meaning σ) = some (.literal (.bool true))) :
    Stmt.simplify (.whileLoop test body) = [.whileLoop test.simplify (Stmt.simplifyAll body)] := by
  rw [Stmt.simplify]
  split_ifs with hno
  · cases Expr.eq_of_isBool_of_eval hno hb
  · rfl

theorem simplify_whileStop
    (hb : test.simplify.eval (M.meaning σ) = some (.literal (.bool false))) :
    Exec M (.block (Stmt.simplify (.whileLoop test body))) σ σ [] .normal := by
  rw [Stmt.simplify]
  split_ifs with hno
  · exact .nil
  · exact single_iff.mpr (.whileStop hb)

theorem simplify_repeatLoop {count : Expr} {n : Int64}
    (hn : count.simplify.eval (M.meaning σ) = some (.literal (.int n)))
    (run : Exec M (.rounds none (List.replicate n.toInt.toNat .absent) (Stmt.simplifyAll body))
      σ τ t e) :
    Exec M (.block (Stmt.simplify (.repeatLoop count body))) σ τ t e := by
  rw [Stmt.simplify]
  split_ifs with hno
  · obtain ⟨m, hm, hle⟩ := Stmt.eq_int_of_isNoRound hno
    rw [hm] at hn
    cases hn
    have hzero : n.toInt.toNat = 0 := by
      rw [Int64.le_iff_toInt_le, Int64.toInt_zero] at hle
      omega
    rw [hzero] at run
    cases run
    exact .nil
  · exact single_iff.mpr (.repeatLoop hn run)

theorem simplify_rangeLoop {v : Variable} {low high : Expr} {op : RangeOp} {a b : Int64}
    (ha : low.simplify.eval (M.meaning σ) = some (.literal (.int a)))
    (hb : high.simplify.eval (M.meaning σ) = some (.literal (.int b)))
    (run : Exec M (.rounds (some v) ((op.members a b).map fun n => .literal (.int n))
      (Stmt.simplifyAll body)) σ τ t e) :
    Exec M (.block (Stmt.simplify (.rangeLoop v low op high body))) σ τ t e := by
  rw [Stmt.simplify]
  split_ifs with hno
  · obtain ⟨a', b', hlow, hhigh, hempty⟩ := Stmt.eq_int_of_isEmptyRange hno
    rw [hlow] at ha
    rw [hhigh] at hb
    cases ha
    cases hb
    rw [RangeOp.members_eq_nil hempty] at run
    cases run
    exact .nil
  · exact single_iff.mpr (.rangeLoop ha hb run)

theorem simplify_eachLoop {v : Variable} {collection : Expr} {c : Value α} {xs : List (Value α)}
    (hc : collection.simplify.eval (M.meaning σ) = some c) (hxs : M.items σ c = some xs)
    (run : Exec M (.rounds (some v) xs (Stmt.simplifyAll body)) σ τ t e) :
    Exec M (.block (Stmt.simplify (.eachLoop v collection body))) σ τ t e := by
  rw [Stmt.simplify]
  split_ifs with hno
  · obtain ⟨s, hs⟩ := Expr.eq_emptyArray_of_isEmptyArray hno
    rw [hs] at hc
    cases hc
    rw [M.items_emptyArray] at hxs
    cases hxs
    cases run
    exact .nil
  · exact single_iff.mpr (.eachLoop hc hxs run)

end Exec

/-- **Every execution of a task is one of what is left of it.** By induction on the execution: each
rule is matched by a rule for the simplified statement, or by no statement at all. -/
theorem Exec.simplify {M : Machine α} {c : Task α} {σ τ : Store α} {t : List (Event α)}
    {e : Ending α} (h : Exec M c σ τ t e) (hc : c.Everywhere Expr.Exact Stmt.Ruled) :
    Exec M c.simplify σ τ t e := by
  induction h with
  | nil => exact .nil
  | cons _ _ ihs ihss =>
    obtain ⟨hs, hss⟩ := List.forall_mem_cons.mp hc
    exact (ihs hs).append (ihss hss)
  | leave _ he ihs => exact (ihs (List.forall_mem_cons.mp hc).1).append_left he _
  | @declare v byReference value σ x hx =>
    have hvalue := hc.exprs value (by simp [Stmt.exprs])
    exact single_iff.mpr (.declare (Expr.eval_simplify_of_exact hvalue hx))
  | struct => exact single_iff.mpr .struct
  | function => exact single_iff.mpr .function
  | @assign target source byReference σ τ p x hp hx hw =>
    have htarget := hc.exprs target (by simp [Stmt.exprs])
    have hsource := hc.exprs source (by simp [Stmt.exprs])
    exact simplify_assign (Expr.place_simplify htarget (.inl hc.here.1) hp)
      (Expr.eval_simplify_of_exact hsource hx) hw
  | @increment target σ τ p n m hp hn hm hw =>
    have htarget := hc.exprs target (by simp [Stmt.exprs])
    exact single_iff.mpr (.increment (Expr.place_simplify htarget (.inl hc.here.1) hp)
      (Expr.eval_simplify_of_exact htarget hn) hm hw)
  | @decrement target σ τ p n m hp hn hm hw =>
    have htarget := hc.exprs target (by simp [Stmt.exprs])
    exact single_iff.mpr (.decrement (Expr.place_simplify htarget (.inl hc.here.1) hp)
      (Expr.eval_simplify_of_exact htarget hn) hm hw)
  | breakLoop => exact single_iff.mpr .breakLoop
  | @giveBack value σ x hx =>
    have hvalue := hc.exprs value (by simp [Stmt.exprs])
    exact single_iff.mpr (.giveBack (Expr.eval_simplify_of_exact hvalue hx))
  | giveNothing => exact single_iff.mpr .giveNothing
  | @call callee args type σ f xs hf hxs =>
    have hcall := hc.exprs (.call callee args type) (by simp [Stmt.exprs])
    have hcallee := hcall.inside callee (by simp [Expr.parts])
    have hargs : ∀ a ∈ args, a.Everywhere Expr.Exact :=
      fun a ha => hcall.inside a (by simp [Expr.parts, ha])
    exact single_iff.mpr (.call (Expr.eval_simplify_of_exact hcallee hf)
      (Expr.evalAll_simplify_of_exact hargs hxs))
  | @construct id args σ xs hxs =>
    have hnew := hc.exprs (.construct id args) (by simp [Stmt.exprs])
    exact single_iff.mpr (.construct (Expr.evalAll_simplify_of_exact hnew.inside hxs))
  | @branch test yes no σ τ t e b hb _ ih =>
    have htest := hc.exprs test (by simp [Stmt.exprs])
    have harm : ∀ s ∈ if b then yes else no, s.Everywhere Expr.Exact Stmt.Ruled := by
      cases b with
      | true => exact fun s hs => hc.inside s (List.mem_append_left no hs)
      | false => exact fun s hs => hc.inside s (List.mem_append_right yes hs)
    exact simplify_branch (Expr.eval_simplify_of_exact htest hb) (ih harm)
  | @shortBranch test yes σ τ t e b hb _ ih =>
    have htest := hc.exprs test (by simp [Stmt.exprs])
    have harm : ∀ s ∈ if b then yes else [], s.Everywhere Expr.Exact Stmt.Ruled := by
      cases b with
      | true => exact hc.inside
      | false => exact List.forall_mem_nil _
    exact simplify_shortBranch (Expr.eval_simplify_of_exact htest hb) (ih harm)
  | @whileStop test body σ hb =>
    have htest := hc.exprs test (by simp [Stmt.exprs])
    exact simplify_whileStop (Expr.eval_simplify_of_exact htest hb)
  | @whileRound test body σ τ ρ t u e hb _ _ ihround ihrest =>
    have hb := Expr.eval_simplify_of_exact (hc.exprs test (by simp [Stmt.exprs])) hb
    have hrest := ihrest hc
    rw [Task.simplify, simplify_whileLoop hb, single_iff] at hrest ⊢
    exact .whileRound hb (ihround hc.inside) hrest
  | @whileLeave test body σ τ t e hb _ he ih =>
    have hb := Expr.eval_simplify_of_exact (hc.exprs test (by simp [Stmt.exprs])) hb
    rw [Task.simplify, simplify_whileLoop hb, single_iff]
    exact .whileLeave hb (ih hc.inside) he
  | @repeatLoop count body σ τ t e n hn _ ih =>
    have hcount := hc.exprs count (by simp [Stmt.exprs])
    exact simplify_repeatLoop (Expr.eval_simplify_of_exact hcount hn) (ih hc.inside)
  | @rangeLoop v low op high body σ τ t e a b ha hb _ ih =>
    have hlow := hc.exprs low (by simp [Stmt.exprs])
    have hhigh := hc.exprs high (by simp [Stmt.exprs])
    exact simplify_rangeLoop (Expr.eval_simplify_of_exact hlow ha)
      (Expr.eval_simplify_of_exact hhigh hb) (ih hc.inside)
  | @eachLoop v collection body σ τ t e x xs hx hxs _ ih =>
    have hcollection := hc.exprs collection (by simp [Stmt.exprs])
    exact simplify_eachLoop (Expr.eval_simplify_of_exact hcollection hx) hxs (ih hc.inside)
  | stop => exact .stop
  | round _ _ ihfirst ihrest => exact .round (ihfirst hc) (ihrest hc)
  | roundLeave _ he ih => exact .roundLeave (ih hc) he

end Typed

/-! ## Checked programs -/

namespace Check

open Typed (Value Event Store Machine Task Ending Exec)

variable {α : Type} {lib : Library} {block : Syntax.Block} {p : Typed.Program}

/-- **Simplification keeps executions.** If a checked program has no arithmetic on floats, each of
its executions is one of the simplified program: from the same store to the same store, with the
same events and the same ending. The same holds of the body of every function in the program, where
executions may end by a `return`. -/
theorem exec_simplify (hp : program lib block = .ok p)
    (hn : p.Everywhere (¬ Typed.Expr.FloatArithmetic ·) fun _ => True) (M : Machine α) :
    (∀ σ τ t e, Exec M (.block p.statements) σ τ t e →
      Exec M (.block p.simplify.statements) σ τ t e) ∧
    ∀ f params body, (∃ s ∈ p.statements, (Typed.Stmt.function f params body).Inside s) →
      ∀ σ τ t e, Exec M (.block body) σ τ t e →
        Exec M (.block (Typed.Stmt.simplifyAll body)) σ τ t e := by
  have hexact : ∀ s ∈ p.statements, s.Everywhere Typed.Expr.Exact Typed.Stmt.Ruled :=
    fun s hs => ((program_ruled hp s hs).and (hn s hs)).imp (fun _ h => h) fun _ h => h.1
  constructor
  · intro σ τ t e h
    exact h.simplify hexact
  · rintro f params body ⟨s, hs, hin⟩ σ τ t e h
    exact h.simplify ((hexact s hs).of_inside hin).inside

namespace Sample

/-- A machine in which nothing but variables can be assigned to. -/
def machine : Machine Nat where
  meaning σ := .sample fun v => σ v.id
  valueOf_meaning _ _ := rfl
  items _ _ := some []
  items_emptyArray _ _ := rfl
  update _ _ _ _ := none

/-- The function that the sample declares. -/
def g : Function := ⟨0, "g", [], .void⟩

/-- The variable that the sample declares. -/
def k : Variable := ⟨1, "k", false, .int⟩

/-- `fn g() { return; } let k = 3; while k > 0 { k--; if true { g(); break; } } k = k;` -/
def leaving : Syntax.Block :=
  let s : Span := default
  .mk [
    .function "g" [] none (.mk [.giveBack none s] s) s,
    .declare "k" false false (.int 3 s) s,
    .whileLoop (.binary .greater (.symbol "k" s) (.int 0 s) s)
      (.mk [
        .decrement (.symbol "k" s) s,
        .branch (.bool true s)
          (.mk [.perform (.call (.symbol "g" s) [] s) s, .breakLoop s] s) .nothing s] s) s,
    .assign (.symbol "k" s) (.symbol "k" s) false s] s

/-- `leaving` once it is checked. -/
def checkedLeaving : Typed.Program :=
  ⟨[.function g [] [.giveBack none],
    .declare k false (.int 3),
    .whileLoop (.binary .greater (.variable k) (.int 0) .bool)
      [.decrement (.variable k),
        .shortBranch (.bool true) [.perform (.call (.function g) [] .void), .breakLoop]],
    .assign (.variable k) (.variable k) false], .empty⟩

end Sample

theorem exec_simplify_leaving :
    program .empty Sample.leaving = .ok Sample.checkedLeaving ∧
      Exec Sample.machine (.block Sample.checkedLeaving.statements) (fun _ => none)
        (fun i => if i = 1 then some (.literal (.int 2)) else none) [.call (.other 0) []] .normal ∧
      Exec Sample.machine (.block Sample.checkedLeaving.simplify.statements) (fun _ => none)
        (fun i => if i = 1 then some (.literal (.int 2)) else none) [.call (.other 0) []]
        .normal := by
  have hp : program .empty Sample.leaving = .ok Sample.checkedLeaving := by cbv
  have hn : Sample.checkedLeaving.Everywhere (¬ Typed.Expr.FloatArithmetic ·) fun _ => True := by
    simp [Sample.checkedLeaving, Typed.Program.Everywhere, Typed.Stmt.Everywhere.iff_forall,
      Typed.Stmt.exprs, Typed.Stmt.inner, Typed.Expr.Everywhere.iff_forall, Typed.Expr.parts,
      Typed.Expr.FloatArithmetic]
  -- one round, which counts down to 2, calls and leaves
  let σ : Store Nat := Store.set (fun _ => none) 1 (.literal (.int 3))
  let τ : Store Nat := σ.set 1 (.literal (.int 2))
  have harm : Exec Sample.machine
      (.block [.perform (.call (.function Sample.g) [] .void), .breakLoop]) τ τ
      ([.call (.other 0) []] ++ []) .broke :=
    .cons (.call rfl rfl) (.leave .breakLoop (by simp))
  have hround : Exec Sample.machine
      (.block [.decrement (.variable Sample.k), .shortBranch (.bool true)
        [.perform (.call (.function Sample.g) [] .void), .breakLoop]]) σ τ
      ([] ++ [.call (.other 0) []]) .broke :=
    .cons (.decrement (p := .variable 1) rfl rfl rfl rfl)
      (.leave (.shortBranch (b := true) rfl harm) (by simp))
  have hstore : τ.set 1 (.literal (.int 2)) =
      fun i => if i = 1 then some (.literal (.int 2)) else none := by
    funext i
    by_cases hi : i = 1 <;> simp [σ, τ, Store.set, hi]
  have hexec : Exec Sample.machine (.block Sample.checkedLeaving.statements) (fun _ => none)
      (fun i => if i = 1 then some (.literal (.int 2)) else none) [.call (.other 0) []]
      .normal := by
    rw [← hstore]
    have hself : Exec Sample.machine
        (.stmt (.assign (.variable Sample.k) (.variable Sample.k) false)) τ
        (τ.set 1 (.literal (.int 2))) [] .normal := .assign (p := .variable 1) rfl rfl rfl
    exact Exec.cons (t := []) .function (.cons (t := []) (.declare rfl)
      (.cons (.whileLeave rfl hround (by simp)) (.cons hself .nil)))
  exact ⟨hp, hexec, (exec_simplify hp hn Sample.machine).1 _ _ _ _ hexec⟩

end Check

end Quill
