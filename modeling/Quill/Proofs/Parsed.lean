import Mathlib
import Quill.Parse.Program

/-!
# What parsers yield

`Yields p Q` says that every result of the parser `p` has the property `Q`, wherever it starts. The
rules for `Yields` follow the way parsers are put together, so that a property of parsed statements
is proved along the parsers and by induction on their budget.

The property proved here is that of the statements which stand for the effect of an expression: the
expression is a call.

Results:
* `Yields.bind`, `Yields.andThen`: a parser and what follows it.
* `yields_stmt`: statements, by induction on the budget.
* **`performsCall_of_parseSource`**: in every program that is read, only calls stand alone.
-/

namespace Quill

/-! ## Statements inside statements -/

namespace Syntax

/-- The lists of statements directly inside what follows an arm; a chained branch stands alone in
its list. -/
def Alternative.bodies : Alternative → List (List Stmt)
  | .nothing => []
  | .otherwise body => [body.body]
  | .elseIf test body rest span => [[.branch test body rest span]]

namespace Stmt

/-- The lists of statements directly inside a statement. -/
def bodies : Stmt → List (List Stmt)
  | .function _ _ _ body _ | .whileLoop _ body _ | .repeatLoop _ body _ | .rangeLoop _ _ _ _ body _
  | .eachLoop _ _ body _ => [body.body]
  | .branch _ body rest _ => body.body :: rest.bodies
  | _ => []

/-- The property holds of the statement and of all statements inside it. -/
inductive Everywhere (Q : Stmt → Prop) : Stmt → Prop
  | node {a : Stmt} (here : Q a) (inside : ∀ body ∈ a.bodies, ∀ b ∈ body, Everywhere Q b) :
      Everywhere Q a

/-- A statement that stands for the effect of an expression holds a call. -/
def PerformsCall : Stmt → Prop
  | .perform e _ => Parse.isCall e = true
  | _ => True

end Stmt

end Syntax

/-! ## Results of parsers -/

namespace Parser

variable {α β : Type} {p q : Parser α} {P Q : α → Prop}

/-- Every result of the parser has the property. -/
def Yields (p : Parser α) (Q : α → Prop) : Prop := ∀ ⦃c a c'⦄, p c = .ok a c' → Q a

namespace Yields

theorem pure {a : α} (h : Q a) : Yields (Pure.pure a) Q := by
  intro c b c' hb
  cases hb
  exact h

theorem throw (e : Failure) : Yields (MonadExcept.throw e) Q := by
  intro c a c' ha
  cases ha

theorem bind {f : α → Parser β} {R : β → Prop} (hp : Yields p P)
    (hf : ∀ a, P a → Yields (f a) R) : Yields (p >>= f) R := by
  intro c b c' hb
  change EStateM.bind p f c = .ok b c' at hb
  unfold EStateM.bind at hb
  split at hb
  · exact hf _ (hp (by assumption)) hb
  · cases hb

theorem andThen {f : α → Parser β} {R : β → Prop} (hf : ∀ a, Yields (f a) R) :
    Yields (p >>= f) R := by
  have hp : Yields p fun _ => True := fun _ _ _ _ => trivial
  exact hp.bind fun a _ => hf a

theorem ite {b : Prop} [Decidable b] (hp : b → Yields p Q) (hq : ¬ b → Yields q Q) :
    Yields (if b then p else q) Q := by
  split_ifs with hb
  · exact hp hb
  · exact hq hb

end Yields

theorem yields_unexpected : Yields unexpected Q := .andThen fun _ => .throw _

theorem yields_unexpectedHere (message : String) : Yields (unexpectedHere message) Q :=
  .andThen fun _ => .throw _

theorem yields_untilEnd (hp : Yields p Q) (n : Nat) : Yields (untilEnd p n) (∀ x ∈ ·, Q x) := by
  induction n with
  | zero => exact .throw _
  | succ n ih =>
    refine .andThen fun c => .ite (fun _ => ?_) fun _ => .pure nofun
    exact .bind hp fun x hx => .bind ih fun xs hxs => .pure (List.forall_mem_cons.mpr ⟨hx, hxs⟩)

end Parser

/-! ## Statements -/

namespace Parse

open Quill.Parser Syntax

/-- The property that a statement and all statements inside it perform calls only. -/
abbrev Calls (a : Stmt) : Prop := a.Everywhere Stmt.PerformsCall

variable {stmt : Parser Stmt} {expr : Parser Expr} {type : Parser TypeExpr} {block : Parser Block}

/-- Statements without others inside. -/
theorem calls_of_bodies {a : Stmt} (ha : a.PerformsCall) (h : a.bodies = []) : Calls a := by
  refine .node ha fun body hb => ?_
  rw [h] at hb
  cases hb

/-- Statements with one list of others inside. -/
theorem calls_of_body {a : Stmt} {body : Block} (ha : a.PerformsCall) (h : a.bodies = [body.body])
    (hbody : ∀ b ∈ body.body, Calls b) : Calls a := by
  refine .node ha fun us hus => ?_
  rw [h, List.mem_singleton] at hus
  exact hus ▸ hbody

/-- Branches. -/
theorem calls_branch {test : Expr} {body : Block} {rest : Alternative} {span : Span}
    (hbody : ∀ a ∈ body.body, Calls a) (hrest : ∀ us ∈ rest.bodies, ∀ a ∈ us, Calls a) :
    Calls (.branch test body rest span) :=
  .node trivial (List.forall_mem_cons.mpr ⟨hbody, hrest⟩)

theorem yields_blockBody (hs : Yields stmt Calls) (n : Nat) :
    Yields (blockBody stmt n) (∀ a ∈ ·, Calls a) := by
  induction n with
  | zero => exact .throw _
  | succ n ih =>
    refine .andThen fun kind => .ite (fun _ => .pure nofun) fun _ => ?_
    refine .andThen fun c => .ite (fun _ => ?_) fun _ => yields_unexpectedHere _
    exact .bind hs fun a ha => .bind ih fun as has => .pure (List.forall_mem_cons.mpr ⟨ha, has⟩)

theorem yields_block (hs : Yields stmt Calls) (n : Nat) :
    Yields (Parse.block stmt n) (∀ a ∈ ·.body, Calls a) := by
  refine .andThen fun opening => .bind (yields_blockBody hs n) fun body hbody => ?_
  exact .andThen fun closing => .andThen fun span => .pure hbody

theorem yields_declare : Yields (declare expr) Calls := by
  refine .andThen fun token => .andThen fun name => .andThen fun byReference => ?_
  refine .andThen fun value => .andThen fun semicolon => .andThen fun span => ?_
  exact .pure (calls_of_bodies trivial rfl)

theorem yields_struct (n : Nat) : Yields (struct type n) Calls := by
  refine .andThen fun token => .andThen fun name => .andThen fun opening => ?_
  refine .andThen fun fields => .andThen fun closing => .andThen fun span => ?_
  exact .pure (calls_of_bodies trivial rfl)

theorem yields_breakLoop : Yields breakLoop Calls := by
  refine .andThen fun token => .andThen fun semicolon => .andThen fun span => ?_
  exact .pure (calls_of_bodies trivial rfl)

theorem yields_giveBack : Yields (giveBack expr) Calls := by
  refine .andThen fun token => .andThen fun value => .andThen fun semicolon => ?_
  exact .andThen fun span => .pure (calls_of_bodies trivial rfl)

theorem yields_assign (target : Expr) : Yields (assign expr target) Calls := by
  refine .andThen fun token => .andThen fun value => .andThen fun semicolon => ?_
  exact .andThen fun span => .pure (calls_of_bodies trivial rfl)

theorem yields_update (target : Expr) : Yields (update target) Calls := by
  refine .andThen fun token => .andThen fun semicolon => .andThen fun span => .ite ?_ ?_
  · exact fun _ => .pure (calls_of_bodies trivial rfl)
  · exact fun _ => .pure (calls_of_bodies trivial rfl)

/-- The one form that performs an expression looks at it first. -/
theorem yields_perform (call : Expr) : Yields (perform call) Calls := by
  refine .ite (fun hcall => ?_) fun _ => yields_unexpectedHere _
  exact .andThen fun semicolon => .andThen fun span => .pure (calls_of_bodies hcall rfl)

theorem yields_plain : Yields (plain expr) Calls := by
  refine .andThen fun first => .andThen fun kind => ?_
  split
  · exact yields_assign first
  · exact yields_assign first
  · exact yields_update first
  · exact yields_update first
  · exact yields_perform first
  · exact yields_unexpected

section

variable (hb : Yields block fun b => ∀ a ∈ b.body, Calls a)

include hb

theorem yields_function (n : Nat) : Yields (function type block n) Calls := by
  refine .andThen fun token => .andThen fun name => .andThen fun opening => ?_
  refine .andThen fun params => .andThen fun closing => .andThen fun result => ?_
  refine .bind hb fun body hbody => .andThen fun span => ?_
  exact .pure (calls_of_body trivial rfl hbody)

theorem yields_whileLoop : Yields (whileLoop expr block) Calls := by
  refine .andThen fun token => .andThen fun test => ?_
  refine .bind hb fun body hbody => .andThen fun span => ?_
  exact .pure (calls_of_body trivial rfl hbody)

theorem yields_repeatLoop : Yields (repeatLoop expr block) Calls := by
  refine .andThen fun token => .andThen fun count => ?_
  refine .bind hb fun body hbody => .andThen fun span => ?_
  exact .pure (calls_of_body trivial rfl hbody)

theorem yields_forLoop : Yields (forLoop expr block) Calls := by
  refine .andThen fun token => .andThen fun iterator => .andThen fun inWord => ?_
  refine .andThen fun first => .andThen fun kind => ?_
  split
  · refine .andThen fun op => .andThen fun high => .bind hb fun body hbody => ?_
    exact .andThen fun span => .pure (calls_of_body trivial rfl hbody)
  · refine .bind hb fun body hbody => .andThen fun span => ?_
    exact .pure (calls_of_body trivial rfl hbody)

theorem yields_alternative (n : Nat) :
    Yields (alternative expr block n) fun rest => ∀ us ∈ rest.bodies, ∀ a ∈ us, Calls a := by
  induction n with
  | zero => exact .throw _
  | succ n ih =>
    refine .andThen fun elseWord => .ite (fun _ => ?_) fun _ => .pure nofun
    refine .andThen fun kind => .ite (fun _ => ?_) fun _ => ?_
    · refine .andThen fun token => .andThen fun test => .bind hb fun body hbody => ?_
      refine .bind ih fun rest hrest => .andThen fun span => .pure ?_
      simpa [Alternative.bodies] using calls_branch hbody hrest
    · refine .bind hb fun body hbody => .pure ?_
      simpa [Alternative.bodies] using hbody

theorem yields_branch (n : Nat) : Yields (branch expr block n) Calls := by
  refine .andThen fun token => .andThen fun test => .bind hb fun body hbody => ?_
  refine .bind (yields_alternative hb n) fun rest hrest => .andThen fun span => ?_
  exact .pure (calls_branch hbody hrest)

end

/-- **Every statement that is read performs calls only.** -/
theorem yields_stmt (g : Grammar) (n : Nat) : Yields (Parse.stmt g n) Calls := by
  induction n with
  | zero => exact .throw _
  | succ n ih =>
    refine .andThen fun kind => ?_
    have hb := yields_block ih n
    split
    · exact yields_declare
    · exact yields_struct n
    · exact yields_function hb n
    · exact yields_breakLoop
    · exact yields_giveBack
    · exact yields_branch hb n
    · exact yields_whileLoop hb
    · exact yields_repeatLoop hb
    · exact yields_forLoop hb
    · exact yields_plain

theorem yields_program (g : Grammar) (n : Nat) :
    Yields (program g n) (∀ a ∈ ·.body, Calls a) := by
  refine .andThen fun start => .bind (yields_untilEnd (yields_stmt g n) n) fun body hbody => ?_
  exact .andThen fun c => .pure hbody

/-- **In every program that is read, only calls stand alone.** -/
theorem performsCall_of_parseSource {source file : String} {b : Block}
    (h : parseSource source file = .ok b) : ∀ a ∈ b.body, Calls a := by
  unfold parseSource at h
  cases ht : tokenize source file with
  | error d =>
    rw [ht] at h
    cases h
  | ok tokens =>
    rw [ht] at h
    change ((Cursor.ofTokens tokens file).run (program .standard)).1 = .ok b at h
    unfold Cursor.run at h
    split at h
    · cases h
      exact yields_program .standard _ (by assumption)
    · cases h

end Parse

end Quill
