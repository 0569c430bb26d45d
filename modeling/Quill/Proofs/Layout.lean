import Quill.Proofs.Tiling
import Quill.Proofs.Verdict

/-!
# Layout does not matter

Two texts with the same tokens differ in white space, in comments, in the way strings are written,
and so in the places of everything. Under the correspondence that relates any two places their
tokens are alike. So all steps do the same with them: they give trees that are the same up to places
and one typed program, or fail at the same step for the same cause.

Results:
* `verdicts_of_pairs`: parsing texts with the same tokens.
* **`layout_irrelevant`**: all steps on texts with the same tokens.
-/

namespace Quill

open Syntax

/-- The correspondence that relates any two places. -/
def Correspondence.any : Correspondence := ⟨fun _ _ => True, fun _ _ => True⟩

theorem Correspondence.any_spans (s t : Span) : Correspondence.any.Spans s t := ⟨trivial, trivial⟩

theorem Token.alike_any {t u : Token} (h : t.pair = u.pair) : t.Alike .any u := by
  obtain ⟨hkind, hvalue⟩ := Prod.mk.inj h
  exact ⟨hkind, hvalue, Correspondence.any_spans _ _, fun _ => ⟨trivial, trivial⟩⟩

theorem Token.alike_any_of_pairs {ts us : List Token}
    (h : ts.map Token.pair = us.map Token.pair) : List.Forall₂ (Token.Alike .any) ts us := by
  have hpairs : List.Forall₂ (· = ·) (ts.map Token.pair) (us.map Token.pair) := by
    rw [h]
    exact List.forall₂_refl _
  rw [List.forall₂_map_left_iff, List.forall₂_map_right_iff] at hpairs
  exact hpairs.imp fun _ _ => Token.alike_any

/-- Texts with the same tokens are parsed alike. -/
theorem verdicts_of_pairs {source source' file file' : String} {ts us : List Token}
    (hts : tokenize source file = .ok ts) (hus : tokenize source' file' = .ok us)
    (hpairs : ts.map Token.pair = us.map Token.pair) :
    Verdicts .any (fun a b => List.Forall₂ (Stmt.Alike .any) a.body b.body)
      (parseSource source file) (parseSource source' file') := by
  unfold parseSource
  rw [hts, hus]
  obtain ⟨ts, p, -, rfl⟩ := Reader.scans_of_ok hts
  obtain ⟨us, q, -, rfl⟩ := Reader.scans_of_ok hus
  rw [List.map_append, List.map_append] at hpairs
  obtain ⟨hpairs, -⟩ := List.append_inj' hpairs rfl
  exact parse_alike trivial (Token.alike_any_of_pairs hpairs) rfl (Token.alike_any rfl)

/-! ## All steps -/

/-- What the steps make of a text. -/
structure Course where
  parsed : Except Diagnostic Block
  checked : Except Diagnostic Typed.Program
  simplified : Except Diagnostic Typed.Program

namespace Course

/-- The steps from the text to the simplified program. -/
def ofSource (lib : Library) (source file : String) : Course :=
  ⟨parseSource source file, checkSource lib source file, simplifySource lib source file⟩

/-- Both courses go through, with trees that are the same up to places and the same typed programs,
or both fail at the same step for the same cause. -/
inductive SameEnd : Course → Course → Prop
  | success {a b : Block} {p : Typed.Program} (htree : a.unplaced = b.unplaced) :
      SameEnd ⟨.ok a, .ok p, .ok p.simplify⟩ ⟨.ok b, .ok p, .ok p.simplify⟩
  | checking {a b : Block} {d e : Diagnostic} (htree : a.unplaced = b.unplaced)
      (hcause : d.cause = e.cause) : SameEnd ⟨.ok a, .error d, .error d⟩ ⟨.ok b, .error e, .error e⟩
  | parsing {d e : Diagnostic} (hcause : d.cause = e.cause) :
      SameEnd ⟨.error d, .error d, .error d⟩ ⟨.error e, .error e, .error e⟩

end Course

/-- **Layout does not matter.** All steps do the same with two texts whose tokens say the same, in
any files and wherever they stand. -/
theorem layout_irrelevant (lib : Library) {source source' file file' : String} {ts us : List Token}
    (hts : tokenize source file = .ok ts) (hus : tokenize source' file' = .ok us)
    (hpairs : ts.map Token.pair = us.map Token.pair) :
    (Course.ofSource lib source file).SameEnd (Course.ofSource lib source' file') := by
  have hparse := verdicts_of_pairs hts hus hpairs
  unfold Course.ofSource simplifySource checkSource
  generalize parseSource source file = x at hparse
  generalize parseSource source' file' = y at hparse
  cases hparse with
  | error hde => exact .parsing hde.cause
  | @ok a b hab =>
    -- the spans of the two programs as a whole are not compared
    have htree : a.unplaced = b.unplaced := by
      rw [Block.unplaced_eq, Block.unplaced_eq, ← Stmt.allUnplaced_eq, ← Stmt.allUnplaced_eq,
        Stmt.allUnplaced_eq_of_alike hab]
    have hcheck := Check.agree_program lib hab
    dsimp only [Except.bind]
    generalize Check.program lib a = x at hcheck
    generalize Check.program lib b = y at hcheck
    cases hcheck with
    | error hde => exact .checking htree hde.cause
    | ok hp =>
      cases hp
      exact .success htree

/-- Two texts that differ in blanks, a comment and the writing of a string. -/
theorem layout_irrelevant_comment : ∃ ts us,
    tokenize "let x=\"\\x41\";" "f" = .ok ts ∧ tokenize "let x // y\n = \"A\" ;" "g" = .ok us ∧
    ts.map Token.pair = us.map Token.pair ∧
    (Course.ofSource .empty "let x=\"\\x41\";" "f").SameEnd
      (Course.ofSource .empty "let x // y\n = \"A\" ;" "g") := by
  have hread : (tokenize "let x=\"\\x41\";" "f").map (List.map Token.pair) =
      .ok [(.word .letWord, "let"), (.identifier, "x"), (.mark .assign, "="), (.string, "A"),
        (.mark .semicolon, ";"), (.eof, "EOF")] := by decide +kernel
  have hread' : (tokenize "let x // y\n = \"A\" ;" "g").map (List.map Token.pair) =
      .ok [(.word .letWord, "let"), (.identifier, "x"), (.mark .assign, "="), (.string, "A"),
        (.mark .semicolon, ";"), (.eof, "EOF")] := by decide +kernel
  obtain ⟨ts, hts, hpairs⟩ := exists_of_map_eq_ok hread
  obtain ⟨us, hus, hpairs'⟩ := exists_of_map_eq_ok hread'
  have hsame := hpairs.trans hpairs'.symm
  exact ⟨ts, us, hts, hus, hsame, layout_irrelevant .empty hts hus hsame⟩

end Quill
