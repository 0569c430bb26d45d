import Quill.Proofs.WellFormed

/-!
# Simplification shrinks programs

The size of a program is the number of its nodes: statements, bodies included, and the expressions
in them. What takes the place of an expression or of a statement is smaller than the expression or
the statement, rebuilt from its simplified parts; and where nothing takes its place, it is smaller
than it was if one of its parts is. So a pass that changes anything makes the program smaller.

A pass adds no names either: the variables, functions and structs that a simplified program mentions
are among those of the program.

Results:
* `Expr.simplify_eq_rebuild_or_size_lt`, `Stmt.simplify_eq_rebuild_or_size_lt`: what the rules do to
  one node.
* `Expr.simplify_eq_or_size_lt`, `Stmt.simplify_eq_or_size_lt`: what a pass does to a tree.
* `Expr.mentions_of_simplify`: names in expressions.
* **`Program.simplify_shrinks`**: programs.
-/

namespace Quill

/-- Two parts that stay or become smaller make a whole that stays or becomes smaller. -/
theorem and_or_add_lt {P Q : Prop} {a b c d : Nat} (hP : P → a = b) (hQ : Q → c = d)
    (h : P ∨ a < b) (h' : Q ∨ c < d) : (P ∧ Q) ∨ a + c < b + d := by
  rcases h with h | h <;> rcases h' with h' | h'
  · exact .inl ⟨h, h'⟩
  · exact .inr (by have := hP h; omega)
  · exact .inr (by have := hQ h'; omega)
  · exact .inr (by omega)

/-- A list whose members stay or become smaller stays or becomes smaller. -/
theorem map_eq_or_sum_lt {α : Type} (size : α → Nat) {f : α → α} {xs : List α}
    (h : ∀ x ∈ xs, f x = x ∨ size (f x) < size x) :
    xs.map f = xs ∨ ((xs.map f).map size).sum < (xs.map size).sum := by
  induction xs with
  | nil => exact .inl rfl
  | cons x xs ih =>
    obtain ⟨hx, hxs⟩ := List.forall_mem_cons.mp h
    simp only [List.map_cons, List.sum_cons]
    refine (and_or_add_lt (congrArg size) (fun h => by rw [h]) hx (ih hxs)).imp_left fun h => ?_
    rw [h.1, h.2]

namespace Typed

/-! ## The size of expressions -/

namespace Expr

mutual

/-- The number of nodes of an expression. -/
def size : Expr → Nat
  | .literal _ | .emptyArray _ | .absent _ | .variable _ | .function _ => 1
  | .conditional test yes no _ => test.size + yes.size + no.size + 1
  | .binary _ left right _ => left.size + right.size + 1
  | .unary _ operand _ => operand.size + 1
  | .array elements _ => sizeAll elements + 1
  | .subscript items index _ => items.size + index.size + 1
  | .member object _ _ _ => object.size + 1
  | .call callee args _ => callee.size + sizeAll args + 1
  | .construct _ args => sizeAll args + 1

/-- The number of nodes of several expressions. -/
def sizeAll : List Expr → Nat
  | [] => 0
  | e :: es => e.size + sizeAll es

end

theorem sizeAll_eq_sum : ∀ es : List Expr, sizeAll es = (es.map size).sum
  | [] => rfl
  | e :: es => by rw [sizeAll, sizeAll_eq_sum es, List.map_cons, List.sum_cons]

/-- A node counts one, and so do those below it. -/
theorem size_eq (e : Expr) : e.size = (e.parts.map size).sum + 1 := by
  cases e <;> simp [size, parts, sizeAll_eq_sum, Nat.add_assoc]

theorem size_pos (e : Expr) : 0 < e.size := by
  rw [size_eq]
  exact Nat.succ_pos _

theorem rebuild_eq_self {e : Expr} (h : e.parts.map simplify = e.parts) : e.rebuild = e := by
  cases e <;> simp_all [parts, rebuild]

/-- **The rules for one node.** An expression that is not rebuilt gives way to something smaller
than it would be. -/
theorem simplify_eq_rebuild_or_size_lt (e : Expr) :
    e.simplify = e.rebuild ∨ e.simplify.size < e.rebuild.size := by
  cases e with
  | conditional test yes no t =>
    rw [simplify, rebuild, size, simplifyConditional]
    split_ifs
    · exact .inr (by omega)
    · exact .inr (by omega)
    · exact .inl rfl
  | binary op left right t =>
    have hleft := left.simplify.size_pos
    have hright := right.simplify.size_pos
    rw [simplify, rebuild, size]
    rcases simplifyBinary_cases op left.simplify right.simplify t with
      ⟨-, h⟩ | ⟨-, ⟨c, h⟩ | h | h | ⟨-, h⟩⟩
    · exact .inl h
    · exact .inr (by rw [h, size]; omega)
    · exact .inr (by rw [h]; omega)
    · exact .inr (by rw [h]; omega)
    -- the left operand of `0 - e` counts, so the negation is smaller
    · exact .inr (by rw [h, size]; omega)
  | unary op operand t =>
    have hoperand := operand.simplify.size_pos
    rw [simplify, rebuild, size, simplifyUnary]
    split
    · exact .inr (by rw [size]; omega)
    · exact .inl rfl
  | array | call | construct =>
    rw [simplify, simplifyAll_eq_map]
    exact .inl rfl
  | _ => exact .inl rfl

theorem rebuild_eq_or_size_lt {e : Expr}
    (h : ∀ c ∈ e.parts, c.simplify = c ∨ c.simplify.size < c.size) :
    e.rebuild = e ∨ e.rebuild.size < e.size := by
  rw [size_eq, size_eq e, parts_rebuild]
  exact (map_eq_or_sum_lt size h).imp rebuild_eq_self (Nat.succ_lt_succ ·)

/-- **A pass leaves an expression as it is or makes it smaller.** -/
theorem simplify_eq_or_size_lt (e : Expr) : e.simplify = e ∨ e.simplify.size < e.size := by
  induction e using induction_parts with
  | step e ih =>
    have hrebuild := rebuild_eq_or_size_lt ih
    rcases e.simplify_eq_rebuild_or_size_lt with h | h
    · rwa [h]
    · refine .inr (h.trans_le ?_)
      rcases hrebuild with heq | hlt
      · rw [heq]
      · exact hlt.le

end Expr

/-! ## The size of statements -/

namespace Stmt

mutual

/-- The number of nodes of a statement: of statements, and of their expressions. -/
def size : Stmt → Nat
  | .struct _ | .breakLoop | .giveBack none => 1
  | .declare _ _ e | .increment e | .decrement e | .giveBack (some e) | .perform e => e.size + 1
  | .assign target source _ => target.size + source.size + 1
  | .function _ _ body => sizeAll body + 1
  | .branch test yes no => test.size + sizeAll yes + sizeAll no + 1
  | .shortBranch e body | .whileLoop e body | .repeatLoop e body | .eachLoop _ e body =>
    e.size + sizeAll body + 1
  | .rangeLoop _ low _ high body => low.size + high.size + sizeAll body + 1

/-- The number of nodes of several statements. -/
def sizeAll : List Stmt → Nat
  | [] => 0
  | s :: rest => s.size + sizeAll rest

end

theorem sizeAll_append (ss rr : List Stmt) : sizeAll (ss ++ rr) = sizeAll ss + sizeAll rr := by
  induction ss with
  | nil => exact (Nat.zero_add _).symm
  | cons s ss ih => rw [List.cons_append, sizeAll, sizeAll, ih, Nat.add_assoc]

theorem size_eq (s : Stmt) :
    s.size = (s.exprs.map Expr.size).sum + (s.bodies.map sizeAll).sum + 1 := by
  cases s with
  | giveBack value => cases value <;> simp [size, exprs, bodies]
  | _ => simp [size, exprs, bodies, Nat.add_assoc]

theorem rebuild_eq_self {s : Stmt} (hexprs : s.exprs.map Expr.simplify = s.exprs)
    (hbodies : s.bodies.map simplifyAll = s.bodies) : s.rebuild = s := by
  cases s with
  | giveBack value => cases value <;> simp_all [exprs, rebuild]
  | _ => simp_all [exprs, bodies, rebuild]

theorem rebuild_eq_or_size_lt {s : Stmt}
    (h : ∀ body ∈ s.bodies, simplifyAll body = body ∨ sizeAll (simplifyAll body) < sizeAll body) :
    s.rebuild = s ∨ s.rebuild.size < s.size := by
  have hexprs := map_eq_or_sum_lt Expr.size fun e (_ : e ∈ s.exprs) => e.simplify_eq_or_size_lt
  have hbodies := map_eq_or_sum_lt sizeAll h
  rw [size_eq, size_eq s, exprs_rebuild, bodies_rebuild]
  refine (and_or_add_lt (fun h => by rw [h]) (fun h => by rw [h]) hexprs hbodies).imp ?_
    (Nat.succ_lt_succ ·)
  exact fun h => rebuild_eq_self h.1 h.2

/-- **The rules for one statement.** A statement that is not rebuilt gives way to an arm of it or to
nothing, which is smaller than it would be. -/
theorem simplify_eq_rebuild_or_size_lt (s : Stmt) :
    s.simplify = [s.rebuild] ∨ sizeAll s.simplify < s.rebuild.size := by
  rw [size_eq s.rebuild, bodies_rebuild]
  rcases s.simplify_cases with h | ⟨-, arm, harm, h⟩ | ⟨-, h⟩
  · exact .inl h
  · have hmem : sizeAll (simplifyAll arm) ∈ (s.bodies.map simplifyAll).map sizeAll :=
      List.mem_map_of_mem (List.mem_map_of_mem harm)
    have hle := List.le_sum_of_mem hmem
    exact .inr (by rw [h]; omega)
  · exact .inr (by rw [h]; exact Nat.succ_pos _)

theorem simplifyAll_eq_or_size_lt {ss : List Stmt}
    (h : ∀ s ∈ ss, s.simplify = [s] ∨ sizeAll s.simplify < s.size) :
    simplifyAll ss = ss ∨ sizeAll (simplifyAll ss) < sizeAll ss := by
  induction ss with
  | nil => exact .inl rfl
  | cons s ss ih =>
    obtain ⟨hs, hss⟩ := List.forall_mem_cons.mp h
    rw [simplifyAll, sizeAll_append, sizeAll]
    have hsize : s.simplify = [s] → sizeAll s.simplify = s.size := fun h => by
      rw [h, sizeAll, sizeAll, Nat.add_zero]
    refine (and_or_add_lt hsize (congrArg sizeAll) hs (ih hss)).imp_left fun h => ?_
    rw [h.1, h.2, List.singleton_append]

/-- **A pass leaves a statement as it is or makes it smaller.** -/
theorem simplify_eq_or_size_lt (s : Stmt) : s.simplify = [s] ∨ sizeAll s.simplify < s.size := by
  induction s using Stmt.induction with
  | step s ih =>
    have hrebuild := rebuild_eq_or_size_lt fun body hbody => by
      refine simplifyAll_eq_or_size_lt fun t ht => ih t ?_
      rw [inner_eq_flatten_bodies]
      exact List.mem_flatten.mpr ⟨body, hbody, ht⟩
    rcases s.simplify_eq_rebuild_or_size_lt with h | h
    · rw [h, sizeAll, sizeAll, Nat.add_zero]
      exact hrebuild.imp_left (by rw [·])
    · refine .inr (h.trans_le ?_)
      rcases hrebuild with heq | hlt
      · rw [heq]
      · exact hlt.le

end Stmt

end Typed

/-! ## Names -/

/-- The struct occurs in the type. -/
inductive Ty.Mentions (id : StructId) : Ty → Prop
  | struct : Mentions id (.struct id)
  | element {t : Ty} (h : Mentions id t) : Mentions id (.array t)
  | param {ps : List Ty} {r t : Ty} (ht : t ∈ ps) (h : Mentions id t) : Mentions id (.function ps r)
  | result {ps : List Ty} {r : Ty} (h : Mentions id r) : Mentions id (.function ps r)
  | alternative {ts : List Ty} {t : Ty} (ht : t ∈ ts) (h : Mentions id t) : Mentions id (.sum ts)

namespace Typed

/-- The variable or the function that an expression is, if it is one. -/
def Expr.name? : Expr → Option Entity
  | .variable v => some (.variable v)
  | .function f => some (.function f)
  | _ => none

/-- The entity occurs in the expression: as a variable or a function, or as a struct in the type of
a node. -/
inductive Expr.Mentions (x : Entity) : Expr → Prop
  | name {e : Expr} (h : e.name? = some x) : Mentions x e
  | type {e : Expr} {id : StructId} (hx : x = .type (.struct id)) (h : e.type.Mentions id) :
      Mentions x e
  | inside {e c : Expr} (hc : c ∈ e.parts) (h : Mentions x c) : Mentions x e

/-- The entities that a statement declares, those inside it left out. -/
def Stmt.declares (s : Stmt) : List Entity := s.declared?.toList ++ s.locals.map .variable

/-- The entity occurs in the statement, those inside it left out: as one that is declared, as a
struct in the type of one, or in an expression. -/
inductive Stmt.Mentions (x : Entity) (s : Stmt) : Prop
  | declared (h : x ∈ s.declares)
  | type {y : Entity} {id : StructId} (hy : y ∈ s.declares) (hx : x = .type (.struct id))
      (h : y.ty.Mentions id)
  | expr {e : Expr} (he : e ∈ s.exprs) (h : e.Mentions x)

theorem Expr.name?_rebuild (e : Expr) : e.rebuild.name? = e.name? := by
  cases e <;> rfl

theorem Expr.not_mentions_literal {x : Entity} (l : Literal) : ¬ (Expr.literal l).Mentions x := by
  rintro (h | ⟨-, h⟩ | ⟨hc, -⟩)
  · cases h
  · cases l <;> cases h
  · cases hc

/-- **A pass adds no names to an expression.** -/
theorem Expr.mentions_of_simplify {x : Entity} {e : Expr} (h : e.simplify.Mentions x) :
    e.Mentions x := by
  induction e using Expr.induction_parts with
  | step e ih =>
    rcases e.simplify_cases with heq | ⟨c, heq⟩ | ⟨c, hc, heq⟩ | ⟨c, hc, heq⟩ <;> rw [heq] at h
    · rcases h with h | ⟨hx, h⟩ | ⟨hc, h⟩
      · exact .name (e.name?_rebuild ▸ h)
      · exact .type hx (e.type_rebuild ▸ h)
      · rw [parts_rebuild] at hc
        obtain ⟨d, hd, rfl⟩ := List.mem_map.mp hc
        exact .inside hd (ih d hd h)
    · exact absurd h (not_mentions_literal c)
    · exact .inside hc (ih c hc h)
    -- a negation has the type of the operator that it takes the place of
    · rcases h with h | ⟨hx, h⟩ | ⟨hd, h⟩
      · cases h
      · exact .type hx h
      · obtain rfl := List.mem_singleton.mp hd
        exact .inside hc (ih c hc h)

theorem Stmt.declares_rebuild (s : Stmt) : s.rebuild.declares = s.declares := by
  rw [declares, declared?_rebuild, locals_rebuild, ← declares]

theorem Stmt.mentions_of_rebuild {x : Entity} {s : Stmt} (h : s.rebuild.Mentions x) :
    s.Mentions x := by
  rcases h with h | ⟨hy, hx, h⟩ | ⟨he, h⟩
  · exact .declared (s.declares_rebuild ▸ h)
  · exact .type (s.declares_rebuild ▸ hy) hx h
  · rw [exprs_rebuild] at he
    obtain ⟨e, hmem, rfl⟩ := List.mem_map.mp he
    exact .expr hmem (Expr.mentions_of_simplify h)

/-! ## Programs -/

namespace Program

/-- The number of nodes of a program. -/
def size (p : Program) : Nat := Stmt.sizeAll p.statements

/-- The entity occurs in a statement of the program, wherever that stands. -/
def Mentions (x : Entity) (p : Program) : Prop := ∃ d s, p.At d s ∧ s.Mentions x

theorem simplify_eq_or_size_lt (p : Program) : p.simplify = p ∨ p.simplify.size < p.size := by
  have h := Stmt.simplifyAll_eq_or_size_lt fun s (_ : s ∈ p.statements) => s.simplify_eq_or_size_lt
  exact h.imp_left fun heq => by rw [simplify, heq]

/-- **A pass that changes a program makes it smaller**, and mentions nothing new. The program need
not be well typed. -/
theorem simplify_shrinks (p : Program) :
    p.simplify.size ≤ p.size ∧ (p.simplify ≠ p → p.simplify.size < p.size) ∧
      p.simplify.types = p.types ∧ ∀ x, p.simplify.Mentions x → p.Mentions x := by
  refine ⟨?_, fun hne => ?_, rfl, ?_⟩
  · rcases p.simplify_eq_or_size_lt with heq | hlt
    · rw [heq]
    · exact hlt.le
  · exact p.simplify_eq_or_size_lt.resolve_left hne
  · rintro x ⟨d', t', hat, hx⟩
    obtain ⟨d, t, ht, -, rfl⟩ := at_simplify hat
    exact ⟨d, t, ht, Stmt.mentions_of_rebuild hx⟩

/-- `let x = 0 - y; if true { y = x * 1; }` -/
def negating (x y : Variable) : Program :=
  ⟨[.declare x false (.binary .subtract (.int 0) (.variable y) .int),
    .shortBranch (.bool true)
      [.assign (.variable y) (.binary .multiply (.variable x) (.int 1) .int) false]], .empty⟩

/-- `let x = -y; y = x;` is what is left: eleven nodes become six. -/
theorem simplify_shrinks_negating :
    let x : Variable := ⟨0, "x", false, .int⟩
    let y : Variable := ⟨1, "y", false, .int⟩
    (negating x y).size = 11 ∧ (negating x y).simplify.size = 6 ∧
      (negating x y).simplify ≠ negating x y ∧
      (negating x y).simplify.size < (negating x y).size ∧
      (negating x y).simplify.Mentions (.variable y) ∧ (negating x y).Mentions (.variable y) := by
  intro x y
  have hne : (negating x y).simplify ≠ negating x y := by
    intro h
    cases h
  have hmem : (negating x y).simplify.Mentions (.variable y) :=
    ⟨_, _, .later .here, .expr (e := .variable y) List.mem_cons_self (.name rfl)⟩
  obtain ⟨-, hlt, -, hmentions⟩ := simplify_shrinks (negating x y)
  exact ⟨rfl, rfl, hne, hlt hne, hmem, hmentions _ hmem⟩

end Program

end Typed

end Quill
