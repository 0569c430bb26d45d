import Quill.Proofs.Nodes

/-!
# Where a statement stands

A `Site` is a place in a program: the statements before it in its list and the statements around it,
the innermost first, each with the statements before it in its own list. `Program.At p d s` says
that the statement `s` of the program `p` stands at `d`. Which loop and which function are around a
statement, and which declarations come before it, is read off its site; nothing here knows how the
program was made.

Results:
* `inLoop_into_loop`, `inLoop_into_function`, `inLoop_into_other`: when a loop is around what stands
  inside a statement.
* `mem_visible_past`, `mem_visible_into`: which declarations are visible further on and further in.
* `Stands.append_iff`: what stands in two lists, one after the other.
-/

namespace Quill.Typed

/-! ## What a statement holds and declares -/

namespace Stmt

/-- The lists of statements directly inside a statement. -/
def bodies : Stmt → List (List Stmt)
  | .declare _ _ _ | .struct _ | .assign _ _ _ | .increment _ | .decrement _ | .breakLoop
  | .giveBack _ | .perform _ => []
  | .branch _ yes no => [yes, no]
  | .function _ _ body | .shortBranch _ body | .whileLoop _ body | .repeatLoop _ body
  | .rangeLoop _ _ _ _ body | .eachLoop _ _ body => [body]

theorem inner_eq_flatten_bodies (s : Stmt) : s.inner = s.bodies.flatten := by
  cases s <;> simp [inner, bodies]

/-- Whether the statement is a loop. -/
def isLoop : Stmt → Bool
  | .whileLoop _ _ | .repeatLoop _ _ | .rangeLoop _ _ _ _ _ | .eachLoop _ _ _ => true
  | _ => false

/-- The function that the statement declares, if it does. -/
def function? : Stmt → Option Function
  | .function f _ _ => some f
  | _ => none

/-- What the statement declares in the list where it stands. -/
def declared? : Stmt → Option Entity
  | .declare v _ _ => some (.variable v)
  | .struct id => some (.type (.struct id))
  | .function f _ _ => some (.function f)
  | _ => none

/-- The variables that the statement declares in the list inside it: parameters and iterators. -/
def locals : Stmt → List Variable
  | .function _ params _ => params
  | .rangeLoop v _ _ _ _ | .eachLoop v _ _ => [v]
  | _ => []

/-- Whether the statement is a branch, with or without an alternative. -/
def isBranch : Stmt → Bool
  | .branch _ _ _ | .shortBranch _ _ => true
  | _ => false

/-! Branches are neither loops nor functions, and declare nothing. -/

section

variable {s : Stmt} (h : s.isBranch = true)

include h

theorem isLoop_of_isBranch : s.isLoop = false := by cases s <;> cases h <;> rfl

theorem function?_of_isBranch : s.function? = none := by cases s <;> cases h <;> rfl

theorem declared?_of_isBranch : s.declared? = none := by cases s <;> cases h <;> rfl

theorem locals_of_isBranch : s.locals = [] := by cases s <;> cases h <;> rfl

end

end Stmt

/-! ## Sites -/

/-- A place in a program: the statements before it in its list, and the statements around it, the
innermost first, each with those before it in its own list. -/
structure Site where
  before : List Stmt
  around : List (Stmt × List Stmt)

namespace Site

/-- The place of the first statement of a program. -/
def start : Site := ⟨[], []⟩

/-- The place in the same list behind these statements. -/
def past (c : Site) (ss : List Stmt) : Site := { c with before := c.before ++ ss }

/-- The place of the first statement inside one that stands here. -/
def into (c : Site) (s : Stmt) : Site := ⟨[], (s, c.before) :: c.around⟩

/-- The statements around the place, the innermost first. -/
def owners (d : Site) : List Stmt := d.around.map Prod.fst

/-- A loop is around the place, and no function between the two. -/
def InLoop (d : Site) : Prop :=
  ∃ inner loop outer, d.owners = inner ++ loop :: outer ∧ loop.isLoop = true ∧
    ∀ s ∈ inner, s.function? = none

/-- The innermost function around the place. -/
def function? (d : Site) : Option Function := d.owners.findSome? Stmt.function?

/-- What has been declared at the place: by a statement before it in its own list or in a list
around that, by a function around it, or as a parameter or an iterator of a statement around it. -/
def visible (d : Site) : List Entity :=
  d.before.filterMap Stmt.declared? ++ d.around.flatMap fun o =>
    o.1.locals.map Entity.variable ++ (o.2 ++ [o.1]).filterMap Stmt.declared?

variable {c : Site} {s : Stmt} {f : Function} {x : Entity}

theorem past_nil : c.past [] = c := by simp [past]

theorem past_past (ss rr : List Stmt) : (c.past ss).past rr = c.past (ss ++ rr) := by simp [past]

/-! ### Loops and functions around -/

theorem not_inLoop_start : ¬ start.InLoop := by
  rintro ⟨inner, loop, outer, h, -⟩
  cases inner <;> cases h

theorem inLoop_into_loop (h : s.isLoop = true) : (c.into s).InLoop :=
  ⟨[], s, c.owners, rfl, h, List.forall_mem_nil _⟩

/-- A function keeps the loops around it out. -/
theorem inLoop_into_function (h : s.function? = some f) : ¬ (c.into s).InLoop := by
  rintro ⟨inner, loop, outer, heq, hloop, hin⟩
  cases inner with
  | nil =>
    obtain ⟨rfl, -⟩ := List.cons.inj heq
    cases s <;> cases h
    cases hloop
  | cons t inner =>
    obtain ⟨rfl, -⟩ := List.cons.inj heq
    have hnone := hin s List.mem_cons_self
    rw [h] at hnone
    cases hnone

theorem inLoop_into_other (hl : s.isLoop = false) (hf : s.function? = none) :
    (c.into s).InLoop ↔ c.InLoop := by
  constructor
  · rintro ⟨inner, loop, outer, heq, hloop, hin⟩
    cases inner with
    | nil =>
      obtain ⟨rfl, -⟩ := List.cons.inj heq
      rw [hl] at hloop
      cases hloop
    | cons t inner =>
      obtain ⟨-, htail⟩ := List.cons.inj heq
      exact ⟨inner, loop, outer, htail, hloop, fun u hu => hin u (List.mem_cons_of_mem t hu)⟩
  · rintro ⟨inner, loop, outer, heq, hloop, hin⟩
    refine ⟨s :: inner, loop, outer, congrArg (s :: ·) heq, hloop, fun u hu => ?_⟩
    rcases List.mem_cons.mp hu with rfl | hu
    · exact hf
    · exact hin u hu

theorem function?_into_function (h : s.function? = some f) : (c.into s).function? = some f := by
  simp only [function?, owners, into, List.map_cons, List.findSome?_cons, h]

theorem function?_into_other (h : s.function? = none) : (c.into s).function? = c.function? := by
  simp only [function?, owners, into, List.map_cons, List.findSome?_cons, h]

/-! ### Visible declarations -/

theorem mem_visible_past {ss : List Stmt} :
    x ∈ (c.past ss).visible ↔ x ∈ c.visible ∨ ∃ s ∈ ss, s.declared? = some x := by
  simp only [visible, past, List.filterMap_append, List.mem_append, List.mem_filterMap]
  exact or_right_comm

theorem mem_visible_into : x ∈ (c.into s).visible ↔
    (∃ v ∈ s.locals, x = .variable v) ∨ s.declared? = some x ∨ x ∈ c.visible := by
  simp only [visible, into, List.filterMap_nil, List.nil_append, List.flatMap_cons,
    List.filterMap_append, List.mem_append, List.mem_map, List.mem_filterMap, List.mem_singleton,
    exists_eq_left, eq_comm (a := x)]
  rw [or_assoc, or_assoc]
  exact or_congr_right or_left_comm

/-! ### Arms of branches -/

section

variable (h : s.isBranch = true)

include h

theorem inLoop_into_branch : (c.into s).InLoop ↔ c.InLoop :=
  inLoop_into_other (Stmt.isLoop_of_isBranch h) (Stmt.function?_of_isBranch h)

theorem function?_into_branch : (c.into s).function? = c.function? :=
  function?_into_other (Stmt.function?_of_isBranch h)

theorem mem_visible_into_branch : x ∈ (c.into s).visible ↔ x ∈ c.visible := by
  simp [mem_visible_into, Stmt.locals_of_isBranch h, Stmt.declared?_of_isBranch h]

end

end Site

/-! ## Statements at sites -/

/-- `Stands c ss d s`: where the list `ss` starts at `c`, the statement `s` stands at `d`, in the
list or inside a statement of it. -/
inductive Stands : Site → List Stmt → Site → Stmt → Prop
  | here {c : Site} {s : Stmt} {ss : List Stmt} : Stands c (s :: ss) c s
  | later {c d : Site} {s t : Stmt} {ss : List Stmt} (h : Stands (c.past [s]) ss d t) :
      Stands c (s :: ss) d t
  | inside {c d : Site} {s t : Stmt} {ss body : List Stmt} (hb : body ∈ s.bodies)
      (h : Stands (c.into s) body d t) : Stands c (s :: ss) d t

/-- The statement stands at the place in the program. -/
def Program.At (p : Program) (d : Site) (s : Stmt) : Prop := Stands .start p.statements d s

namespace Stands

variable {c d : Site} {t : Stmt}

theorem append_iff {ss rr : List Stmt} :
    Stands c (ss ++ rr) d t ↔ Stands c ss d t ∨ Stands (c.past ss) rr d t := by
  induction ss generalizing c with
  | nil =>
    rw [List.nil_append, Site.past_nil]
    exact ⟨.inr, fun h => h.resolve_left nofun⟩
  | cons s ss ih =>
    have hpast : (c.past [s]).past ss = c.past (s :: ss) := Site.past_past [s] ss
    constructor
    · intro h
      cases h with
      | here => exact .inl .here
      | later h =>
        have hrest := ih.mp h
        rw [hpast] at hrest
        exact hrest.imp_left .later
      | inside hb h => exact .inl (.inside hb h)
    · rintro (h | h)
      · cases h with
        | here => exact .here
        | later h => exact .later (ih.mpr (.inl h))
        | inside hb h => exact .inside hb h
      · exact .later (ih.mpr (.inr (hpast ▸ h)))

/-- What holds everywhere in a list holds of every statement that stands in it. -/
theorem everywhere {P : Expr → Prop} {Q : Stmt → Prop} {ss : List Stmt}
    (hss : ∀ s ∈ ss, s.Everywhere P Q) (h : Stands c ss d t) : t.Everywhere P Q := by
  induction h with
  | here => exact hss _ List.mem_cons_self
  | later _ ih => exact ih fun s hs => hss s (List.mem_cons_of_mem _ hs)
  | @inside c d s t ss body hb _ ih =>
    refine ih fun u hu => (hss s List.mem_cons_self).inside u ?_
    rw [Stmt.inner_eq_flatten_bodies]
    exact List.mem_flatten.mpr ⟨body, hb, hu⟩

end Stands

end Quill.Typed
