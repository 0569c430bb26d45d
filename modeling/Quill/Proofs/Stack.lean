import Quill.Proofs.Naming

/-!
# Scopes as a stack

Scopes are entered and left, and names are bound in the innermost one, in any order. A `Stack` keeps
a record of this: for each scope that is open, what it was entered for, and the names bound in it in
the order of time. Nothing is copied from scope to scope and nothing is replaced; which loop and
which function are around, and what a name stands for, is read off the record (`Finds`).

`Scopes` settles the loop and the function when a scope is entered, and finds the latest binding
first. After any calls, whatever their order, the two agree.

Results:
* `Mirrors.after`, `mirrors_afterAll`: what a call keeps, and so any number of calls.
* `Mirrors.inLoop_iff`, `Mirrors.function_iff`, `Mirrors.findSome?_eq_some_iff`: what is read off.
* `Balanced.afterAll_push_pop`: calls that leave every scope they enter.
* **`Scopes.refines_stack`**: all of it, from the outermost scope on.
-/

namespace Quill

/-! ## Calls -/

/-- A call that can be made of the open scopes. -/
inductive ScopeCall where
  | push (kind : ScopeKind)
  | pop
  | declare (name : String) (entity : Entity) (p : Position)
  | define (name : String) (entity : Entity)
  | lookup (name : String) (p : Position)

/-- The scopes after a call; those before it, if the call fails. -/
def Scopes.after (s : Scopes) : ScopeCall → Scopes
  | .push kind => s.push kind
  | .pop => s.pop
  | .declare name entity p => (s.declare name entity p).toOption.getD s
  | .define name entity => s.define name entity
  | .lookup _ _ => s

/-- The scopes after several calls. -/
def Scopes.afterAll (s : Scopes) (calls : List ScopeCall) : Scopes := calls.foldl after s

theorem Scopes.afterAll_cons (s : Scopes) (call : ScopeCall) (calls : List ScopeCall) :
    s.afterAll (call :: calls) = (s.after call).afterAll calls := rfl

theorem Scopes.afterAll_append (s : Scopes) (calls later : List ScopeCall) :
    s.afterAll (calls ++ later) = (s.afterAll calls).afterAll later := List.foldl_append

/-- The calls leave every scope that they enter, and no other. -/
inductive Balanced : List ScopeCall → Prop
  | nil : Balanced []
  | declare {name : String} {entity : Entity} {p : Position} {calls : List ScopeCall}
      (h : Balanced calls) : Balanced (.declare name entity p :: calls)
  | define {name : String} {entity : Entity} {calls : List ScopeCall} (h : Balanced calls) :
      Balanced (.define name entity :: calls)
  | lookup {name : String} {p : Position} {calls : List ScopeCall} (h : Balanced calls) :
      Balanced (.lookup name p :: calls)
  | nested {kind : ScopeKind} {body calls : List ScopeCall} (hbody : Balanced body)
      (h : Balanced calls) : Balanced (.push kind :: (body ++ .pop :: calls))

/-! ## The record -/

/-- A scope that is open: what it was entered for, unless it is the outermost one, and the names
bound in it, in the order of time. -/
structure OpenScope where
  kind : Option ScopeKind
  bound : List (String × Entity)

namespace OpenScope

/-- A name is bound in the scope. -/
abbrev Binds (name : String) (o : OpenScope) : Prop := name ∈ o.bound.map Prod.fst

/-- The entity is the latest that is bound in the scope under the name. -/
def Latest (name : String) (entity : Entity) (o : OpenScope) : Prop :=
  ∃ earlier later, o.bound = earlier ++ (name, entity) :: later ∧ name ∉ later.map Prod.fst

/-- The scope was entered for a function. -/
def IsFunction (o : OpenScope) : Prop := ∃ f, o.kind = some (.function f)

/-- The scope with one name more. -/
def bind (o : OpenScope) (name : String) (entity : Entity) : OpenScope :=
  { o with bound := o.bound ++ [(name, entity)] }

end OpenScope

/-- The record of all open scopes, of which there is always one. -/
structure Stack where
  inner : OpenScope
  outer : List OpenScope

namespace Stack

/-- The outermost scope alone. -/
def root : Stack := ⟨⟨none, []⟩, []⟩

/-- All open scopes, the innermost first. -/
def toList (st : Stack) : List OpenScope := st.inner :: st.outer

/-- The record after a call. -/
def after (st : Stack) : ScopeCall → Stack
  | .push kind => ⟨⟨some kind, []⟩, st.toList⟩
  | .pop =>
    match st.outer with
    | [] => st
    | o :: os => ⟨o, os⟩
  | .declare name entity _ =>
    if st.inner.Binds name then st else { st with inner := st.inner.bind name entity }
  | .define name entity => { st with inner := st.inner.bind name entity }
  | .lookup _ _ => st

/-- The record after several calls. -/
def afterAll (st : Stack) (calls : List ScopeCall) : Stack := calls.foldl after st

end Stack

/-- One of the open scopes has the property `P`, and none that was entered later has `Q`. -/
def Finds (P Q : OpenScope → Prop) (os : List OpenScope) : Prop :=
  ∃ later o earlier, os = later ++ o :: earlier ∧ P o ∧ ∀ l ∈ later, ¬ Q l

section

variable {P Q : OpenScope → Prop} {o : OpenScope} {os : List OpenScope}

theorem not_finds_nil : ¬ Finds P Q [] := by
  rintro ⟨later, o, earlier, h, -⟩
  cases later <;> cases h

theorem finds_cons : Finds P Q (o :: os) ↔ P o ∨ ¬ Q o ∧ Finds P Q os := by
  constructor
  · rintro ⟨later, o', earlier, h, hP, hQ⟩
    cases later with
    | nil =>
      obtain ⟨rfl, -⟩ := List.cons.inj h
      exact .inl hP
    | cons l later =>
      obtain ⟨rfl, rfl⟩ := List.cons.inj h
      obtain ⟨hl, hlater⟩ := List.forall_mem_cons.mp hQ
      exact .inr ⟨hl, later, o', earlier, rfl, hP, hlater⟩
  · rintro (hP | ⟨hQ, later, o', earlier, rfl, hP, hlater⟩)
    · exact ⟨[], o, os, rfl, hP, List.forall_mem_nil _⟩
    · exact ⟨o :: later, o', earlier, rfl, hP, List.forall_mem_cons.mpr ⟨hQ, hlater⟩⟩

/-- Where what is looked for is what stops the search, it is found if it is anywhere. -/
theorem exists_finds_iff {α : Type} {P : α → OpenScope → Prop} (h : ∀ o, Q o ↔ ∃ a, P a o) :
    (∃ a, Finds (P a) Q os) ↔ ∃ o ∈ os, Q o := by
  induction os with
  | nil => simp [not_finds_nil]
  | cons o os ih =>
    simp only [finds_cons, List.exists_mem_cons_iff, ← ih, exists_or, ← h, exists_and_left]
    by_cases hQ : Q o <;> simp [hQ]

theorem eq_none_iff_forall_not {α : Type} {P : α → OpenScope → Prop} {found : Option α}
    (hfound : ∀ a, found = some a ↔ Finds (P a) Q os) (h : ∀ o, Q o ↔ ∃ a, P a o) :
    found = none ↔ ∀ o ∈ os, ¬ Q o := by
  rw [Option.eq_none_iff_forall_ne_some]
  simp only [ne_eq, hfound, ← not_exists, exists_finds_iff h]
  simp

end

/-! ## Scopes and their record -/

/-- The scopes are what the record says: each has its names, the latest first, and what it took over
from the scope around it when it was entered. -/
inductive Mirrors : List Scope → List OpenScope → Prop
  | root {s : Scope} {o : OpenScope} (hnames : s.names = o.bound.reverse) (hkind : o.kind = none)
      (hloop : s.inLoop = false) (hfunction : s.function = none) : Mirrors [s] [o]
  | child {s p : Scope} {ss : List Scope} {o : OpenScope} {os : List OpenScope} {kind : ScopeKind}
      (hnames : s.names = o.bound.reverse) (hkind : o.kind = some kind)
      (hloop : s.inLoop = (p.child kind).inLoop) (hfunction : s.function = (p.child kind).function)
      (h : Mirrors (p :: ss) os) : Mirrors (s :: p :: ss) (o :: os)

namespace Mirrors

variable {s : Scope} {ss : List Scope} {o : OpenScope} {os : List OpenScope} {name : String}

theorem names (h : Mirrors (s :: ss) (o :: os)) : s.names = o.bound.reverse := by
  cases h with
  | root hnames => exact hnames
  | child hnames => exact hnames

theorem length_eq (h : Mirrors ss os) : ss.length = os.length := by
  induction h with
  | root => rfl
  | child _ _ _ _ _ ih => exact congrArg (· + 1) ih

/-! One call. -/

theorem push (h : Mirrors (s :: ss) os) (kind : ScopeKind) :
    Mirrors (s.child kind :: s :: ss) (⟨some kind, []⟩ :: os) :=
  .child (by cases kind <;> rfl) rfl rfl rfl h

theorem bind (h : Mirrors (s :: ss) (o :: os)) (name : String) (entity : Entity) :
    Mirrors (s.bind name entity :: ss) (o.bind name entity :: os) := by
  have hnames : (s.bind name entity).names = (o.bind name entity).bound.reverse := by
    rw [Scope.bind, OpenScope.bind, List.reverse_concat, h.names]
  cases h with
  | root _ hkind hloop hfunction => exact .root hnames hkind hloop hfunction
  | child _ hkind hloop hfunction h => exact .child hnames hkind hloop hfunction h

theorem find?_eq_none_iff (h : Mirrors (s :: ss) (o :: os)) :
    s.find? name = none ↔ ¬ o.Binds name := by
  rw [Scope.find?, h.names, lookup_reverse_eq_none]

theorem find?_eq_some_iff (h : Mirrors (s :: ss) (o :: os)) {entity : Entity} :
    s.find? name = some entity ↔ o.Latest name entity := by
  rw [Scope.find?, h.names, lookup_reverse_eq_some]
  rfl

/-- **What a call keeps.** -/
theorem after {s : Scopes} {st : Stack} (h : Mirrors s.toList st.toList) (call : ScopeCall) :
    Mirrors (s.after call).toList (st.after call).toList := by
  cases call with
  | push kind => exact h.push kind
  | pop =>
    obtain ⟨inner, outer⟩ := s
    obtain ⟨top, below⟩ := st
    cases h with
    | root hnames hkind hloop hfunction => exact .root hnames hkind hloop hfunction
    | child _ _ _ _ h =>
      cases below with
      | nil => cases h
      | cons o os => exact h
  | declare name entity p =>
    rw [Scopes.after, Stack.after, Scopes.declare]
    cases hfind : s.inner.find? name with
    | none =>
      rw [if_neg (h.find?_eq_none_iff.mp hfind)]
      exact h.bind name entity
    | some x =>
      rw [if_pos]
      · exact h
      · by_contra hbinds
        rw [h.find?_eq_none_iff.mpr hbinds] at hfind
        cases hfind
  | define name entity => exact h.bind name entity
  | lookup name p => exact h

/-! What is read off the record. -/

theorem findSome?_eq_some_iff {entity : Entity} (h : Mirrors ss os) :
    ss.findSome? (·.find? name) = some entity ↔
      Finds (·.Latest name entity) (·.Binds name) os := by
  induction h with
  | @root s o hnames hkind hloop hfunction =>
    have hroot : Mirrors [s] [o] := .root hnames hkind hloop hfunction
    rw [finds_cons, ← hroot.find?_eq_some_iff]
    simp [not_finds_nil]
  | @child s p ss o os kind hnames hkind hloop hfunction h ih =>
    have hchild : Mirrors (s :: p :: ss) (o :: os) := .child hnames hkind hloop hfunction h
    rw [finds_cons, ← hchild.find?_eq_some_iff, ← hchild.find?_eq_none_iff, ← ih,
      List.findSome?_cons]
    cases s.find? name <;> simp

/-- A loop is around if the scope is a loop, or if it is no function and a loop is around that. -/
theorem inLoop_iff (h : Mirrors (s :: ss) os) :
    s.inLoop = true ↔ Finds (·.kind = some .loop) OpenScope.IsFunction os := by
  induction os generalizing s ss with
  | nil => cases h
  | cons o os ih =>
    rw [finds_cons, OpenScope.IsFunction]
    cases h with
    | root _ hkind hloop _ => simp [hkind, hloop, not_finds_nil]
    | @child _ _ _ _ _ kind _ hkind hloop _ h =>
      rw [hloop, hkind, ← ih h]
      cases kind <;> simp [Scope.child]

theorem function_iff {f : Function} (h : Mirrors (s :: ss) os) :
    s.function = some f ↔ Finds (·.kind = some (.function f)) OpenScope.IsFunction os := by
  induction os generalizing s ss with
  | nil => cases h
  | cons o os ih =>
    rw [finds_cons, OpenScope.IsFunction]
    cases h with
    | root _ hkind _ hfunction => simp [hkind, hfunction, not_finds_nil]
    | @child _ _ _ _ _ kind _ hkind _ hfunction h =>
      rw [hfunction, hkind, ← ih h]
      cases kind <;> simp [Scope.child]

end Mirrors

/-- **What any number of calls keeps**, by induction on them. -/
theorem mirrors_afterAll (calls : List ScopeCall) {s : Scopes} {st : Stack}
    (h : Mirrors s.toList st.toList) :
    Mirrors (s.afterAll calls).toList (st.afterAll calls).toList := by
  induction calls generalizing s st with
  | nil => exact h
  | cons call calls ih => exact ih (h.after call)

/-! ## Scopes that are left again -/

theorem Scopes.exists_bindAll_declare (s : Scopes) (name : String) (entity : Entity)
    (p : Position) : ∃ bs, s.after (.declare name entity p) = s.bindAll bs := by
  rw [after, declare]
  split
  · exact ⟨[], rfl⟩
  · exact ⟨[(name, entity)], rfl⟩

/-- Calls that leave every scope they enter bind names in the innermost one, and that is all. -/
theorem Balanced.exists_bindAll {calls : List ScopeCall} (h : Balanced calls) (s : Scopes) :
    ∃ bs, s.afterAll calls = s.bindAll bs := by
  induction h generalizing s with
  | nil => exact ⟨[], rfl⟩
  | @declare name entity p calls _ ih =>
    obtain ⟨bs, hbs⟩ := s.exists_bindAll_declare name entity p
    obtain ⟨cs, hcs⟩ := ih (s.bindAll bs)
    exact ⟨bs ++ cs, by rw [Scopes.afterAll_cons, hbs, hcs, Scopes.bindAll_append]⟩
  | @define name entity calls _ ih =>
    obtain ⟨bs, hbs⟩ := ih (s.define name entity)
    exact ⟨(name, entity) :: bs, hbs⟩
  | lookup _ ih => exact ih s
  | @nested kind body calls _ _ ihbody ih =>
    obtain ⟨bs, hbs⟩ := ihbody (s.push kind)
    obtain ⟨cs, hcs⟩ := ih s
    refine ⟨cs, ?_⟩
    rw [Scopes.afterAll_cons, Scopes.afterAll_append, Scopes.after, hbs, Scopes.afterAll_cons,
      Scopes.after, Scopes.pop_bindAll_push, hcs]

/-- A scope that is entered and left leaves no trace. -/
theorem Balanced.afterAll_push_pop {body : List ScopeCall} (h : Balanced body) (s : Scopes)
    (kind : ScopeKind) : s.afterAll (.push kind :: (body ++ [.pop])) = s := by
  obtain ⟨bs, hbs⟩ := h.exists_bindAll (s.push kind)
  rw [Scopes.afterAll_cons, Scopes.afterAll_append, Scopes.after, hbs]
  exact Scopes.pop_bindAll_push kind

/-! ## All calls -/

/-- What the scopes answer is what the record says. -/
structure Scopes.Refines (s : Scopes) (st : Stack) : Prop where
  depth : s.depth = st.toList.length ∧ 1 ≤ s.depth
  /-- A name stands for its latest binding in the innermost scope that binds it. -/
  lookup : ∀ name p entity, s.lookup name p = .ok entity ↔
    Finds (·.Latest name entity) (·.Binds name) st.toList
  undeclared : ∀ name p d, s.lookup name p = .error d ↔
    d = ⟨.undeclared name, p⟩ ∧ ∀ o ∈ st.toList, ¬ o.Binds name
  redeclared : ∀ name entity p d, s.declare name entity p = .error d ↔
    d = ⟨.redeclared name, p⟩ ∧ st.inner.Binds name
  /-- A declaration that fails leaves everything as it was. -/
  unchanged : ∀ name entity p d, s.declare name entity p = .error d →
    s.after (.declare name entity p) = s ∧ ∀ state : Check.State, state.env.scopes = s →
      Check.Checker.declare name entity p state = .error d state
  /-- A loop was entered after the innermost function. -/
  inLoop : s.inLoop = true ↔ Finds (·.kind = some .loop) OpenScope.IsFunction st.toList
  function : ∀ f, s.function = some f ↔
    Finds (·.kind = some (.function f)) OpenScope.IsFunction st.toList
  noFunction : s.function = none ↔ ∀ o ∈ st.toList, ¬ o.IsFunction

open Check in
theorem Check.run_declare_error {name : String} {entity : Entity} {p : Position} {d : Diagnostic}
    {s : State} (h : s.env.scopes.declare name entity p = .error d) :
    Checker.declare name entity p s = .error d s := by
  unfold Checker.declare
  simp only [bind, EStateM.bind, get, getThe, MonadStateOf.get, EStateM.get, h]
  rfl

theorem OpenScope.binds_iff_exists_latest {name : String} (o : OpenScope) :
    o.Binds name ↔ ∃ entity, o.Latest name entity := by
  rw [← not_iff_not, ← lookup_reverse_eq_none, Option.eq_none_iff_forall_ne_some, not_exists]
  exact forall_congr' fun entity => not_congr lookup_reverse_eq_some

theorem Mirrors.refines {s : Scopes} {st : Stack} (h : Mirrors s.toList st.toList) :
    s.Refines st where
  depth := ⟨h.length_eq, Nat.succ_pos _⟩
  lookup name p entity := by
    rw [← h.findSome?_eq_some_iff, Scopes.lookup, Scopes.find?]
    cases s.toList.findSome? (·.find? name) <;> simp
  undeclared name p d := by
    rw [← eq_none_iff_forall_not (fun _ => h.findSome?_eq_some_iff)
      OpenScope.binds_iff_exists_latest, Scopes.lookup, Scopes.find?]
    cases s.toList.findSome? (·.find? name) <;> simp [eq_comm]
  redeclared name entity p d := by
    rw [← not_not (a := st.inner.Binds name), ← h.find?_eq_none_iff, Scopes.declare]
    cases s.inner.find? name <;> simp [eq_comm]
  unchanged name entity p d hd := by
    refine ⟨by rw [Scopes.after, hd]; rfl, ?_⟩
    rintro state rfl
    exact Check.run_declare_error hd
  inLoop := h.inLoop_iff
  function f := h.function_iff
  noFunction := eq_none_iff_forall_not (fun _ => h.function_iff) fun _ => Iff.rfl

/-- **Scopes are a stack.** After any calls, in any order, the open scopes answer as the record of
the calls says, and a scope that is entered and left leaves no trace. -/
theorem Scopes.refines_stack (calls : List ScopeCall) :
    (Scopes.root.afterAll calls).Refines (Stack.root.afterAll calls) ∧
      ∀ kind body, Balanced body →
        Scopes.root.afterAll (calls ++ .push kind :: (body ++ [.pop])) =
          Scopes.root.afterAll calls := by
  have hroot : Mirrors Scopes.root.toList Stack.root.toList := .root rfl rfl rfl rfl
  refine ⟨(mirrors_afterAll calls hroot).refines, fun kind body hbody => ?_⟩
  rw [Scopes.afterAll_append, hbody.afterAll_push_pop]

namespace Sample

/-- A function with a loop in it, which binds `x` again. -/
def entering (p : Position) : List ScopeCall :=
  [.define "x" (.type .int), .push (.function ⟨0, "f", [], .void⟩), .push .loop,
    .declare "x" (.type .bool) p]

/-- `y` is declared, then `x` in a block, and then `y` once more, which fails. -/
def shadowing (p : Position) : List ScopeCall :=
  [.declare "y" (.type .float) p, .push .block, .declare "x" (.type .string) p, .pop,
    .declare "y" (.type .any) p]

end Sample

/-- In the loop `x` is the inner one. What is declared in a block there is gone behind it, and the
declaration that fails leaves no trace. -/
theorem Scopes.refines_stack_shadowing :
    let p : Position := .start "shell"
    let s := Scopes.root.afterAll (Sample.entering p)
    s.lookup "x" p = .ok (.type .bool) ∧ s.inLoop = true ∧ Balanced (Sample.shadowing p) ∧
      Scopes.root.afterAll (Sample.entering p ++ .push .block :: (Sample.shadowing p ++ [.pop]))
        = s := by
  intro p s
  have hblock : Balanced [.declare "x" (.type .string) p] := .declare .nil
  have hbody : Balanced (Sample.shadowing p) := .declare (hblock.nested (.declare .nil))
  obtain ⟨hrefines, hrestored⟩ := Scopes.refines_stack (Sample.entering p)
  refine ⟨(hrefines.lookup _ _ _).mpr ?_, hrefines.inLoop.mpr ?_, hbody, hrestored _ _ hbody⟩
  · exact ⟨[], _, _, rfl, ⟨[], [], rfl, List.not_mem_nil⟩, List.forall_mem_nil _⟩
  · exact ⟨[], _, _, rfl, rfl, List.forall_mem_nil _⟩

end Quill
