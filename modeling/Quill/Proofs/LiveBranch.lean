import Quill.Proofs.Containment
import Quill.Proofs.Serving

/-!
# Programs in a live branch

A program that is accepted is accepted as the body of `if true { ... }` too, and as the second arm
of `if false { ... } else { ... }`; simplification then takes the branch away again. Checked inside
the branch, the program stands in a scope of its own, with the library around it instead of in it.
That scope answers every question as the outermost one did, so that the program passes as before.
In the second arm its identities come after those of the first arm, and its structs would, too: that
arm must not declare any.

Results:
* `Library.renumber_eq_self`: the library keeps its identities when those of a program move.
* `program_ifTrue`, `program_ifFalse`: what the branches become.
* `program_liveBranch`: what is left of them.
-/

namespace Quill

open Renumbering

/-! ## Libraries -/

namespace Library

/-- Identities from `nextId` on may move: the names of the library stay what they are. -/
theorem renumber_eq_self {lib : Library} {name : String} {x : Entity}
    (hx : lib.scopes.find? name = some x) (k : Nat) : x.renumber (shift lib.nextId k) = x := by
  obtain ⟨entry, hentry⟩ := mem_entities_scopes.mp (Scopes.mem_entities_of_find? hx)
  have hlt : ∀ i ∈ x.id?, i < lib.nextId := lib.id_lt _ hentry
  cases x with
  | «variable» v => rw [Entity.renumber, Variable.renumber, shift_of_lt (hlt v.id rfl)]
  | function f => rw [Entity.renumber, Function.renumber, shift_of_lt (hlt f.id rfl)]
  | type t => rfl

end Library

namespace Check

open Syntax

variable {lib : Library}

/-! ## The scope of a branch -/

/-- A block serves as the outermost scope does, if nothing but identities was used up before. -/
theorem State.ServedBy.enter_block {k : Nat} {s : State} (hscopes : s.env.scopes = lib.scopes)
    (htypes : s.env.types = .empty) (hnext : s.nextId = lib.nextId + k)
    (hlib : ∀ name x, lib.scopes.find? name = some x → x.renumber (shift lib.nextId k) = x) :
    (State.initial lib).ServedBy lib.nextId k (s.enter .block) where
  scopes := by
    have hroot : lib.scopes = ⟨⟨lib.entries.reverse, false, none⟩, []⟩ := Agrees.scopes_initial lib
    refine ⟨fun name => ?_, fun name _ => rfl, ?_, ?_⟩
    · show (s.env.scopes.push .block).find? name = (lib.scopes.find? name).map _
      rw [hscopes, Scopes.find?_push]
      cases hx : lib.scopes.find? name with
      | none => rfl
      | some x => rw [Option.map_some, hlib name x hx]
    · show s.env.scopes.inner.inLoop = lib.scopes.inner.inLoop
      rw [hscopes]
    · show s.env.scopes.inner.function = lib.scopes.inner.function.map _
      rw [hscopes, hroot]
      rfl
  types := htypes
  least := le_rfl
  nextId := hnext

theorem servedBy_block (lib : Library) :
    (State.initial lib).ServedBy lib.nextId 0 ((State.initial lib).enter .block) :=
  .enter_block rfl rfl rfl fun _ x _ => x.renumber_eq_self (shift_zero lib.nextId)

/-! ## Branches -/

variable {a b : Block} {p pa : Typed.Program}

/-- In a block over the library a program passes as it does on its own. Of the block only the
structs and the identities remain. -/
theorem checks_block (h : program lib b = .ok p) :
    ∃ s, Checks ((State.initial lib).enter .block) (.stmts b.body p.statements) s ∧
      s.leave.env.scopes = lib.scopes ∧ s.env.types = p.types ∧
      s.nextId = lib.nextId + p.ids.length := by
  obtain ⟨s₀, hchecks₀, htypes₀⟩ := checks_of_program h
  obtain ⟨s, hchecks, hs⟩ := hchecks₀.servedBy (servedBy_block lib)
  rw [Piece.renumber, Typed.Stmt.renumberAll_eq_self (shift_zero lib.nextId)] at hchecks
  refine ⟨s, hchecks, hchecks.binds_self.leave.scopes, hs.types.trans htypes₀, ?_⟩
  obtain ⟨k, hids, hnext⟩ : Numbers lib.nextId p.ids s₀.nextId := hchecks₀.ids
  rw [hs.nextId, hnext, hids, List.length_range', Nat.add_zero]

/-- A program that declares no struct has none. -/
theorem types_eq_empty (h : program lib b = .ok p) (hstructs : p.structIds = []) :
    p.types = .empty := by
  obtain ⟨s, hchecks, htypes⟩ := checks_of_program h
  obtain ⟨k, hids, hlength⟩ :
      Numbers 0 (p.structIds.map StructId.index) s.env.types.structs.length := hchecks.structIds
  have hk : 0 = k := by simpa [hstructs] using congrArg List.length hids
  have hnil : s.env.types.structs = [] := List.eq_nil_of_length_eq_zero (by omega)
  rw [← htypes, TypeTable.empty, ← hnil]

variable (s₁ s₂ s₃ : Span)

/-- `if true { b }`. -/
theorem program_ifTrue (h : program lib b = .ok p) :
    program lib (.mk [.branch (.bool true s₁) b .nothing s₂] s₃) =
      .ok ⟨[.shortBranch (.bool true) p.statements], p.types⟩ := by
  obtain ⟨s, hchecks, -, htypes, -⟩ := checks_block h
  have htest : expr (State.initial lib).env (.bool true s₁) = .ok (.bool true) := by
    rw [expr]
    rfl
  exact program_eq_ok_iff.mpr ⟨s.leave, .cons (.branch htest rfl hchecks .nothing) .nil, htypes⟩

/-- `if false { a } else { b }`: the identities of the second arm come after those of the first. -/
theorem program_ifFalse (ha : program lib a = .ok pa) (hstructs : pa.structIds = [])
    (h : program lib b = .ok p) :
    program lib (.mk [.branch (.bool false s₁) a (.otherwise b) s₂] s₃) =
      .ok ⟨[.branch (.bool false) pa.statements
        (Typed.Stmt.renumberAll (shift lib.nextId pa.ids.length) p.statements)], p.types⟩ := by
  obtain ⟨s, hyes, hscopes, htypes, hnext⟩ := checks_block ha
  obtain ⟨s₀, hchecks₀, htypes₀⟩ := checks_of_program h
  have hempty : s.leave.env.types = .empty := htypes.trans (types_eq_empty ha hstructs)
  have hserved : (State.initial lib).ServedBy lib.nextId pa.ids.length (s.leave.enter .block) :=
    .enter_block hscopes hempty hnext fun _ x hx => Library.renumber_eq_self hx _
  obtain ⟨s', hno, hs'⟩ := hchecks₀.servedBy hserved
  have htest : expr (State.initial lib).env (.bool false s₁) = .ok (.bool false) := by
    rw [expr]
    rfl
  refine program_eq_ok_iff.mpr ⟨s'.leave, ?_, hs'.types.trans htypes₀⟩
  exact .cons (.branch htest rfl hyes (.otherwise hno)) .nil

/-- **A live branch changes nothing.** A program that is accepted is accepted under `if true`, and
what is left of that is what is left of the program. It is accepted as the second arm of an
`if false` as well, of which the first arm is an accepted program that declares no struct; what is
left of that is what is left of the program, with its identities behind those of the first arm. -/
theorem program_liveBranch (h : program lib b = .ok p) :
    (∃ q, program lib (.mk [.branch (.bool true s₁) b .nothing s₂] s₃) = .ok q ∧
      q.simplify = p.simplify) ∧
    ∀ a pa, program lib a = .ok pa → pa.structIds = [] →
      ∃ q, program lib (.mk [.branch (.bool false s₁) a (.otherwise b) s₂] s₃) = .ok q ∧
        q.simplify = p.simplify.renumber (shift lib.nextId pa.ids.length) := by
  refine ⟨⟨_, program_ifTrue s₁ s₂ s₃ h, ?_⟩, fun a pa ha hstructs => ?_⟩
  · exact congrArg (Typed.Program.mk · p.types) (List.append_nil _)
  · refine ⟨_, program_ifFalse s₁ s₂ s₃ ha hstructs h, ?_⟩
    rw [← Typed.Program.simplify_renumber]
    exact congrArg (Typed.Program.mk · p.types) (List.append_nil _)

namespace Sample

/-- `let r = pi; struct Box { size: float } fn grown(b: Box): float { return b.size + r; }` -/
def boxes : Block :=
  let s : Span := default
  .mk [
    .declare "r" false false (.symbol "pi" s) s,
    .struct "Box" [⟨"size", .named "float" s, s⟩] s,
    .function "grown" [⟨"b", .named "Box" s, s⟩] (some (.named "float" s))
      (.mk [.giveBack (some (.binary .add (.member (.symbol "b" s) "size" false s)
        (.symbol "r" s) s)) s] s) s] s

/-- `boxes` once it is checked. -/
def checkedBoxes : Typed.Program :=
  let b : Variable := ⟨10, "b", false, .struct ⟨0⟩⟩
  ⟨[.declare ⟨8, "r", false, .float⟩ false (.variable ⟨0, "pi", true, .float⟩),
    .struct ⟨0⟩,
    .function ⟨9, "grown", [.struct ⟨0⟩], .float⟩ [b]
      [.giveBack (some (.binary .add (.member (.variable b) "size" false .float)
        (.variable ⟨8, "r", false, .float⟩) .float))]],
    ⟨[⟨"Box", [⟨"size", .float⟩]⟩]⟩⟩

end Sample

/-- A program with a variable, a struct and a function, as the second arm of an `if false` of which
the first arm declares one variable. -/
theorem program_liveBranch_boxes :
    let s : Span := default
    let first : Block := .mk [.declare "n" false false (.int 1 s) s] s
    let checkedFirst : Typed.Program := ⟨[.declare ⟨8, "n", false, .int⟩ false (.int 1)], .empty⟩
    program .standard Sample.boxes = .ok Sample.checkedBoxes ∧
    program .standard first = .ok checkedFirst ∧
    (∃ q, program .standard (.mk [.branch (.bool true s) Sample.boxes .nothing s] s) = .ok q ∧
      q.simplify = Sample.checkedBoxes.simplify) ∧
    ∃ q, program .standard (.mk [.branch (.bool false s) first (.otherwise Sample.boxes) s] s) =
        .ok q ∧ q.simplify = Sample.checkedBoxes.simplify.renumber (shift 8 1) := by
  intro s first checkedFirst
  have hboxes : program .standard Sample.boxes = .ok Sample.checkedBoxes := by cbv
  have hfirst : program .standard first = .ok checkedFirst := by cbv
  obtain ⟨htrue, hfalse⟩ := program_liveBranch s s s hboxes
  exact ⟨hboxes, hfirst, htrue, hfalse first checkedFirst hfirst rfl⟩

end Check

end Quill
