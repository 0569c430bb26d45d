import Quill.Proofs.Derivation

/-!
# What obeys the rules passes

The rules of `Checks` say what a check that passes has done. They leave nothing out: a piece of a
program that obeys them passes the check, with the result and the state that the rules give. To show
that a program is accepted, it is enough to derive it.

Results:
* `run_declareVariable`, `run_struct` and their like: when the parts of the checker pass.
* **`Checks.passes`**: what obeys the rules passes.
* `program_eq_ok_iff`: a program is accepted if and only if it obeys the rules.
-/

namespace Quill.Check

open Syntax Checker

variable {s s' s₁ : State} {env : Env} {p : Position} {t : Ty}

/-! ## Demands that are met -/

theorem expectBool_of_eq (h : t = .bool) : env.expectBool t p = .ok () := if_pos (by simp [h])

theorem expectInt_of_eq (h : t = .int) : env.expectInt t p = .ok () := if_pos (by simp [h])

theorem expectAssignable_of_fits {source : Typed.Expr} (h : source.type.assignable t = true) :
    env.expectAssignable source t p = .ok () := if_pos h

theorem target_of_fault {e : Expr} {place : Typed.Expr} (h : expr env e = .ok place)
    (hplace : targetFault? place = none) : target env e = .ok place := by
  unfold target
  refine bind_eq_ok.mpr ⟨place, h, ?_⟩
  rw [hplace]
  rfl

/-! ## Parts that pass -/

theorem run_ask {α : Type} {f : Env → Except Diagnostic α} {a : α} (h : f s.env = .ok a) :
    ask f s = .ok a s := by
  unfold ask
  refine run_bind_ok.mpr ⟨s, s, rfl, ?_⟩
  rw [h]
  rfl

theorem run_inScope {α : Type} {kind : ScopeKind} {body : Checker α} {a : α}
    (h : body (s.enter kind) = .ok a s₁) : inScope kind body s = .ok a s₁.leave := by
  unfold inScope
  rw [← State.enter, h]
  rfl

section

variable {name : String} (hnew : s.env.scopes.inner.find? name = none)

include hnew

theorem run_declare (x : Entity) :
    Checker.declare name x p s = .ok () (mapScopes (·.define name x) s) := by
  unfold Checker.declare
  refine run_bind_ok.mpr ⟨s, s, rfl, ?_⟩
  simp only [Scopes.declare, hnew]
  rfl

theorem run_declareVariable (readOnly : Bool) (t : Ty) :
    declareVariable name readOnly t p s = .ok ⟨s.nextId, name, readOnly, t⟩
      (s.introduce name (.variable ⟨s.nextId, name, readOnly, t⟩)) := by
  have hnew' : (⟨s.env, s.nextId + 1⟩ : State).env.scopes.inner.find? name = none := hnew
  unfold declareVariable
  exact run_bind_ok.mpr ⟨s.nextId, _, rfl, run_bind_ok.mpr ⟨(), _, run_declare hnew' _, rfl⟩⟩

theorem run_function {params : List Binding} {result : Option TypeExpr} {ts : List Ty} {r : Ty}
    (hsig : signature s.env params result = .ok (ts, r)) :
    function name params result p s = .ok ⟨s.nextId, name, ts, r⟩
      (s.introduce name (.function ⟨s.nextId, name, ts, r⟩)) := by
  have hnew' : (⟨s.env, s.nextId + 1⟩ : State).env.scopes.inner.find? name = none := hnew
  unfold function
  refine run_bind_ok.mpr ⟨(ts, r), s, run_ask hsig, ?_⟩
  exact run_bind_ok.mpr ⟨s.nextId, _, rfl, run_bind_ok.mpr ⟨(), _, run_declare hnew' _, rfl⟩⟩

theorem run_struct {bindings : List Binding} {fs : List Field} {types : TypeTable}
    (hfields : fields (s.structEnv name) bindings = .ok fs)
    (hdefine : (s.env.types.declare name).define s.env.types.nextId fs = .ok types) :
    struct name bindings p s = .ok (.struct s.env.types.nextId) (s.introduceStruct name fs) := by
  let declared : State := ⟨⟨s.env.scopes, s.env.types.declare name⟩, s.nextId⟩
  have hnew' : declared.env.scopes.inner.find? name = none := hnew
  obtain rfl := TypeTable.define_declare hdefine
  unfold struct
  refine run_bind_ok.mpr ⟨s, s, rfl, run_bind_ok.mpr ⟨(), declared, rfl, ?_⟩⟩
  refine run_bind_ok.mpr ⟨(), _, run_declare hnew' _, ?_⟩
  refine run_bind_ok.mpr ⟨fs, _, run_ask hfields, run_bind_ok.mpr ⟨_, _, rfl, ?_⟩⟩
  simp only [mapScopes, declared, hdefine]
  exact run_bind_ok.mpr ⟨(), _, rfl, rfl⟩

end

theorem run_condition {e : Expr} {test : Typed.Expr} (he : expr s.env e = .ok test)
    (hbool : test.type = .bool) : condition e s = .ok test s :=
  run_ask (bind_eq_ok.mpr ⟨test, he, bind_eq_ok.mpr ⟨(), expectBool_of_eq hbool, rfl⟩⟩)

theorem run_integer {e : Expr} {n : Typed.Expr} (he : expr s.env e = .ok n)
    (hint : n.type = .int) : integer e s = .ok n s :=
  run_ask (bind_eq_ok.mpr ⟨n, he, bind_eq_ok.mpr ⟨(), expectInt_of_eq hint, rfl⟩⟩)

theorem run_assignment {e v : Expr} {place source : Typed.Expr} (he : expr s.env e = .ok place)
    (hplace : targetFault? place = none) (hv : expr s.env v = .ok source)
    (hfits : source.type.assignable place.type = true) :
    assignment e v s = .ok (place, source) s := by
  refine run_ask (bind_eq_ok.mpr ⟨place, target_of_fault he hplace, ?_⟩)
  exact bind_eq_ok.mpr ⟨source, hv, bind_eq_ok.mpr ⟨(), expectAssignable_of_fits hfits, rfl⟩⟩

theorem run_counted {e : Expr} {place : Typed.Expr} (he : expr s.env e = .ok place)
    (hplace : targetFault? place = none) (hint : place.type = .int) :
    counted e p s = .ok place s := by
  refine run_ask (bind_eq_ok.mpr ⟨place, target_of_fault he hplace, ?_⟩)
  exact bind_eq_ok.mpr ⟨(), expectInt_of_eq hint, rfl⟩

/-! ## Pieces that pass -/

/-- Checking the piece passes, with what came out of it. -/
def Piece.Passes (s s' : State) : Piece → Prop
  | .stmt a t => Check.stmt a s = .ok t s'
  | .stmts as ts => Check.stmts as s = .ok ts s'
  | .alternative a no => Check.alternative a s = .ok no s'

/-- The body of a loop passes, behind its iterator, of which the name is new in an empty scope. -/
theorem run_loopBody {kind : ScopeKind} {iterator : String} {body : List Stmt} {v : Variable}
    {us : List Typed.Stmt} (hv : v = ⟨s.nextId, iterator, true, t⟩)
    (hbody : stmts body ((s.enter kind).introduce iterator (.variable v)) = .ok us s₁) :
    inScope kind (do
      let v ← declareVariable iterator true t p
      return (v, ← stmts body)) s = .ok (v, us) s₁.leave := by
  subst hv
  have hnew : (s.enter kind).env.scopes.inner.find? iterator = none := by cases kind <;> rfl
  refine run_inScope (run_bind_ok.mpr ⟨_, _, run_declareVariable hnew true t, ?_⟩)
  exact run_bind_ok.mpr ⟨us, s₁, hbody, rfl⟩

/-- **What obeys the rules passes.** By induction on the rules. -/
theorem Checks.passes {o : Piece} (h : Checks s o s') : o.Passes s s' := by
  induction h with
  | declare hvalue hv hnew =>
    subst hv
    simp only [Piece.Passes, stmt, run_bind_ok, run_pure_ok]
    exact ⟨_, _, run_ask hvalue, _, _, run_declareVariable hnew _ _, rfl, rfl⟩
  | struct hnew hfields hdefine =>
    rw [Piece.Passes, stmt]
    exact run_struct hnew hfields hdefine
  | @function s s₁ s₂ name params result body span ts r f vs us hsig hf hnew hparams hbody ih =>
    subst hf
    obtain ⟨body, _⟩ := body
    simp only [Piece.Passes, stmt, run_bind_ok, run_pure_ok]
    refine ⟨_, _, run_function hnew hsig, (vs, us), _, run_inScope ?_, rfl, rfl⟩
    exact run_bind_ok.mpr ⟨vs, s₁, hparams, run_bind_ok.mpr ⟨us, s₂, ih, rfl⟩⟩
  | assign htarget hplace hvalue hfits =>
    simp only [Piece.Passes, stmt, run_bind_ok, run_pure_ok]
    exact ⟨_, _, run_assignment htarget hplace hvalue hfits, rfl, rfl⟩
  | increment htarget hplace hint | decrement htarget hplace hint =>
    simp only [Piece.Passes, stmt, run_bind_ok, run_pure_ok]
    exact ⟨_, _, run_counted htarget hplace hint, rfl, rfl⟩
  | breakLoop hloop =>
    rw [Piece.Passes, stmt]
    exact run_ask (if_pos hloop)
  | leave hf hvoid =>
    rw [Piece.Passes, stmt]
    refine run_ask ?_
    simp only [hf, hvoid, if_true]
  | giveBack hf hvoid hvalue hfits =>
    rw [Piece.Passes, stmt]
    refine run_ask ?_
    simp only [hf, hvoid, if_false]
    exact bind_eq_ok.mpr ⟨_, hvalue, bind_eq_ok.mpr ⟨(), expectAssignable_of_fits hfits, rfl⟩⟩
  | @branch s s₁ s' test body rest span e yes no htest hbool _ _ hyes hno =>
    obtain ⟨body, _⟩ := body
    simp only [Piece.Passes, stmt, run_bind_ok, run_pure_ok]
    exact ⟨e, s, run_condition htest hbool, yes, _, run_inScope hyes, no, s', hno, rfl, rfl⟩
  | @whileLoop s s₁ test body span e us htest hbool _ ih =>
    obtain ⟨body, _⟩ := body
    simp only [Piece.Passes, stmt, run_bind_ok, run_pure_ok]
    exact ⟨e, s, run_condition htest hbool, us, _, run_inScope ih, rfl, rfl⟩
  | @repeatLoop s s₁ count body span e us hcount hint _ ih =>
    obtain ⟨body, _⟩ := body
    simp only [Piece.Passes, stmt, run_bind_ok, run_pure_ok]
    exact ⟨e, s, run_integer hcount hint, us, _, run_inScope ih, rfl, rfl⟩
  | @rangeLoop s s₁ iterator low high op body span a b v us hlow hlowInt hhigh hhighInt hv _ ih =>
    obtain ⟨body, _⟩ := body
    simp only [Piece.Passes, stmt]
    refine run_bind_ok.mpr ⟨a, s, run_integer hlow hlowInt, ?_⟩
    refine run_bind_ok.mpr ⟨b, s, run_integer hhigh hhighInt, ?_⟩
    exact run_bind_ok.mpr ⟨(v, us), _, run_loopBody hv ih, rfl⟩
  | @eachLoop s s₁ iterator e body span c element v us hcollection harray hv _ ih =>
    obtain ⟨body, _⟩ := body
    have helement : expectArray s.env c.type e.span.start = .ok element := by rw [harray]; rfl
    simp only [Piece.Passes, stmt]
    refine run_bind_ok.mpr ⟨c, s, run_ask hcollection, ?_⟩
    refine run_bind_ok.mpr ⟨element, s, run_ask helement, ?_⟩
    exact run_bind_ok.mpr ⟨(v, us), _, run_loopBody hv ih, rfl⟩
  | perform he =>
    simp only [Piece.Passes, stmt, run_bind_ok, run_pure_ok]
    exact ⟨_, _, run_ask he, rfl, rfl⟩
  | nothing => rfl
  | @otherwise s s₁ body us _ ih =>
    obtain ⟨body, _⟩ := body
    simp only [Piece.Passes, alternative, run_bind_ok, run_pure_ok]
    exact ⟨us, _, run_inScope ih, rfl, rfl⟩
  | @elseIf s s' test body rest span t _ ih =>
    obtain ⟨body, _⟩ := body
    simp only [Piece.Passes, stmt, alternative, run_bind_ok, run_pure_ok] at ih ⊢
    obtain ⟨e, s₁, he, yes, s₂, hyes, no, s₃, hno, rfl, rfl⟩ := ih
    exact ⟨e, s₁, he, yes, s₂, hyes, no, s₃, hno, rfl, rfl⟩
  | nil => rfl
  | cons _ _ hhead htail =>
    simp only [Piece.Passes, stmts, run_bind_ok, run_pure_ok]
    exact ⟨_, _, hhead, _, _, htail, rfl, rfl⟩

/-- **The programs that are accepted are those that obey the rules.** -/
theorem program_eq_ok_iff {lib : Library} {b : Block} {q : Typed.Program} :
    program lib b = .ok q ↔
      ∃ s, Checks (.initial lib) (.stmts b.body q.statements) s ∧ s.env.types = q.types := by
  refine ⟨checks_of_program, ?_⟩
  rintro ⟨s, hchecks, htypes⟩
  have hrun : stmts b.body (.initial lib) = .ok q.statements s := hchecks.passes
  obtain ⟨ts, types⟩ := q
  obtain rfl : s.env.types = types := htypes
  unfold program
  rw [hrun]

end Quill.Check
