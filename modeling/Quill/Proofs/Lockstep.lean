import Quill.Proofs.Descent

/-!
# Tokens that are alike

Tokens that differ in their places only are parsed in the same way (`Descends`): to programs that
differ in their places only, or to faults with one cause, at places that correspond.

Results:
* `Verdicts`: results that are related, or diagnostics that are alike.
* **`parse_alike`**: parsing lists of tokens that are alike.
-/

namespace Quill

open Syntax

variable {R : Correspondence}

/-- Both are results, related by `Q`, or both are diagnostics that are alike. -/
inductive Verdicts {α β : Type} (R : Correspondence) (Q : α → β → Prop) :
    Except Diagnostic α → Except Diagnostic β → Prop
  | ok {a : α} {b : β} (h : Q a b) : Verdicts R Q (.ok a) (.ok b)
  | error {d e : Diagnostic} (h : d.Alike R e) : Verdicts R Q (.error d) (.error e)

namespace Verdicts

variable {α β γ δ : Type} {P : α → β → Prop} {Q : γ → δ → Prop}

theorem bind {x : Except Diagnostic α} {y : Except Diagnostic β} {f : α → Except Diagnostic γ}
    {g : β → Except Diagnostic δ} (hxy : Verdicts R P x y)
    (hf : ∀ a b, P a b → Verdicts R Q (f a) (g b)) : Verdicts R Q (x >>= f) (y >>= g) := by
  cases hxy with
  | ok h => exact hf _ _ h
  | error h => exact .error h

end Verdicts

/-- The budget of each of two cursors that are alike is enough for both. -/
theorem Cursor.Alike.verdicts {c d : Cursor} (h : c.Alike R d) :
    Verdicts R (fun a b : Block => List.Forall₂ (Stmt.Alike R) a.body b.body)
      (c.run (Parse.program .standard)).1 (d.run (Parse.program .standard)).1 := by
  have hbudget : c.weight < d.budget := h.budget ▸ Nat.lt_succ_self _
  have hout := (Parse.descends_program (c := ⟨c, d, h⟩) (Nat.lt_succ_self _) hbudget).outcomes
  unfold Cursor.run
  change Parser.Outcomes R _ (Parse.program .standard c.budget c)
    (Parse.program .standard d.budget d) at hout
  generalize Parse.program .standard c.budget c = x at hout
  generalize Parse.program .standard d.budget d = y at hout
  cases hout with
  | ok hab _ => exact .ok hab.body
  | fault hde _ => exact .error hde

theorem Cursor.ofTokens_append (ts : List Token) {last : Token} (hlast : last.kind = .eof)
    (file : String) :
    Cursor.ofTokens (ts ++ [last]) file = ⟨.start file, ts, ⟨last.value, last.span⟩⟩ := by
  have hclose : Cursor.close file (ts ++ [last]) = (ts, ⟨last.value, last.span⟩) := by
    induction ts with
    | nil => rw [List.nil_append, Cursor.close, if_pos hlast]
    | cons t ts ih =>
      obtain ⟨u, us, hus⟩ : ∃ u us, ts ++ [last] = u :: us :=
        List.exists_cons_of_ne_nil (by simp)
      rw [hus] at ih
      rw [List.cons_append, hus, Cursor.close, ih]
  rw [Cursor.ofTokens, hclose]

/-- **Lists of tokens that are alike write programs that are alike**, or have one fault. The lists
are closed, as those of a text are. -/
theorem parse_alike {ts us : List Token} {last last' : Token} {file file' : String}
    (hstart : R.ends (.start file) (.start file')) (hts : List.Forall₂ (Token.Alike R) ts us)
    (heof : last.kind = .eof) (hlast : last.Alike R last') :
    Verdicts R (fun a b : Block => List.Forall₂ (Stmt.Alike R) a.body b.body)
      (parse (ts ++ [last]) file) (parse (us ++ [last']) file') := by
  have hcursor : (Cursor.ofTokens (ts ++ [last]) file).Alike R
      (Cursor.ofTokens (us ++ [last']) file') := by
    rw [Cursor.ofTokens_append ts heof, Cursor.ofTokens_append us (hlast.kind ▸ heof)]
    exact ⟨hstart, hts, hlast.value, hlast.span⟩
  exact hcursor.verdicts

end Quill
