import Quill.Proofs.TypeText
import Quill.Proofs.Ending
import Quill.Proofs.Impasse

/-!
# Blanks in annotations

In `let a = []T;` the blanks within the annotation `T` can be left out, but some pairs of marks are
then glued. Two `>` are cut apart again. Two `<` and two `?` are not: an annotation that starts with
a sum that starts with a sum, or that is asked twice, needs a blank there.

What is left behind a glued `??` up to the end of the declaration is more of `?`, and none of that
is an operand; so the declaration is not read as an expression with the operator `??` either.

Results:
* `Parse.stmt_declares`: all that is read of the declaration is the annotation, and what follows it.
* `parse_of_cuts`, `parse_of_clash`: the two outcomes.
* **`parseSource_array`**: which blanks can be left out.
-/

namespace Quill

open Syntax

namespace Parse

open Quill.Parser

variable {e c : Cursor} {t : TypeExpr} {w : List Token}

/-! ## A declaration of an empty array -/

theorem bind_of_eq {α β : Type} {p q : Parser α} {f : α → Parser β} {c' : Cursor}
    (h : p c = q c') : (p >>= f) c = (q >>= f) c' := by
  change EStateM.bind p f c = EStateM.bind q f c'
  rw [EStateM.bind, EStateM.bind, h]

theorem expr_emptyArray (hopen : c.kind = .mark .openBracket)
    (hclose : c.advance.kind = .mark .closeBracket) (n : Nat) :
    expr .standard (n + 1) .weakest c =
      (typeExpr .standard n .weakest >>= fun t => spanFrom c.position >>= fun s =>
        exprTail .standard (expr .standard n) .weakest n (.emptyArray t s)) c.advance.advance := by
  have hhead : exprHead .standard (expr .standard n) (typeExpr .standard n .weakest) n c =
      array (expr .standard n) (typeExpr .standard n .weakest) n c := by
    rw [exprHead, bind_of_ok (peekKind_ok c), hopen]
    rfl
  have harray : array (expr .standard n) (typeExpr .standard n .weakest) n c =
      (typeExpr .standard n .weakest >>= fun t => spanFrom c.position >>= fun s =>
        pure (.emptyArray t s)) c.advance.advance := by
    rw [array, bind_of_ok (expect_of_kind hopen), bind_of_ok (accept_of_kind hclose)]
    rfl
  rw [expr, bind_of_eq (hhead.trans harray)]
  simp only [bind_assoc, pure_bind]

theorem stmt_let (hlet : c.kind = .word .letWord) (hname : c.advance.kind = .identifier)
    (hassign : c.advance.advance.kind = .mark .assign) (n : Nat) :
    stmt .standard (n + 1) c =
      (expr .standard n .weakest >>= fun e => expect (.mark .semicolon) >>= fun _ =>
        spanFrom c.position >>= fun s =>
          pure (.declare c.advance.current.value false false e s)) c.advance.advance.advance := by
  have hform : stmt .standard (n + 1) c = declare (expr .standard n .weakest) c := by
    change (peekKind >>= fun kind => _) c = _
    rw [bind_of_ok (peekKind_ok c), hlet]
    rfl
  have hmark : bindingMark c.advance.advance = .ok false c.advance.advance.advance := by
    rw [bindingMark, bind_of_ok (peekKind_ok _), hassign]
    rfl
  have hident : expectOr .identifier "expected identifier during variable declaration" c.advance =
      .ok c.advance.current c.advance.advance := by
    rw [expectOr, bind_of_ok (peekKind_ok _), if_pos hname]
    rfl
  have hadvance : advance c = .ok c.current c.advance := rfl
  have hconst : c.current.kind = .word .letWord := hlet
  rw [hform, declare, bind_of_ok hadvance, bind_of_ok hident, bind_of_ok hmark, hconst]
  rfl

/-- At the end of a statement an expression is complete. -/
theorem exprTail_of_semicolon {expr : Power → Parser Expr} {left : Expr} {n : Nat}
    (hc : c.kind = .mark .semicolon) :
    exprTail .standard expr .weakest (n + 1) left c = .ok left c := by
  rw [exprTail, Round.exprTail, bind_of_ok (peekKind_ok c), hc]
  rfl

/-- A `??` wants an operand behind it, which no `?`, `??` or `;` starts. -/
theorem stuck_exprTail {left : Expr} {n m : Nat} (hc : c.kind = .mark .questionQuestion)
    (hnext : Grammar.standardExprStart c.advance.kind = none) :
    Stuck e False (exprTail .standard (expr .standard m) .weakest n left c) := by
  cases n with
  | zero => trivial
  | succ n =>
    have hoperand : ∀ power, Stuck e False (expr .standard m power c.advance) := by
      intro power
      cases m with
      | zero => trivial
      | succ m =>
        refine Stuck.bind (P := False) ?_ False.elim
        rw [exprHead, bind_of_ok (peekKind_ok _),
          show Grammar.standard.exprStart c.advance.kind = none from hnext]
        trivial
    have hbinary : Stuck e False (binary (expr .standard m) left .coalesce c) := by
      have hadvance : advance c = .ok c.current c.advance := rfl
      have hcurrent : c.current.kind = .mark .questionQuestion := hc
      refine .bind_ok hadvance ?_
      rw [hcurrent]
      exact (hoperand _).bind False.elim
    rw [exprTail, Round.exprTail, bind_of_ok (peekKind_ok c), hc]
    change Stuck e False ((if Power.coalesce ≤ Power.weakest then pure left
      else continuation (expr .standard m) n left .coalesce .binary >>= exprTail _ _ _ _) c)
    rw [if_neg (by decide)]
    exact hbinary.bind False.elim

/-- The cursor stands before `let x = []`. -/
structure Declares (c : Cursor) : Prop where
  word : c.kind = .word .letWord
  name : c.advance.kind = .identifier
  mark : c.advance.advance.kind = .mark .assign
  opening : c.advance.advance.advance.kind = .mark .openBracket
  closing : c.advance.advance.advance.advance.kind = .mark .closeBracket

/-- Behind `let x = []`. -/
def behindBrackets (c : Cursor) : Cursor := c.advance.advance.advance.advance.advance

/-- All that is read there is an annotation, and what follows it. -/
theorem stmt_declares (hc : Declares c) (n : Nat) :
    stmt .standard (n + 2) c =
      (typeExpr .standard n .weakest >>= fun t =>
        spanFrom c.advance.advance.advance.position >>= fun s =>
          exprTail .standard (expr .standard n) .weakest n (.emptyArray t s) >>= fun e =>
            expect (.mark .semicolon) >>= fun _ => spanFrom c.position >>= fun s' =>
              pure (.declare c.advance.current.value false false e s')) (behindBrackets c) := by
  rw [stmt_let hc.word hc.name hc.mark, bind_of_eq (expr_emptyArray hc.opening hc.closing _)]
  simp only [bind_assoc]
  rfl

theorem program_declares_ok {n : Nat} (hc : Declares c) (ht : t.Occupies w)
    (hfaces : (behindBrackets c).Faces e w) (he : e.kind = .mark .semicolon)
    (hlast : e.advance.kind = .eof) (hn : w.length + 3 < n) :
    ∃ b c', program .standard n c = .ok b c' ∧ b.unplaced =
      .mk [.declare c.advance.current.value false false (.emptyArray t.unplaced .nowhere) .nowhere]
        .nowhere := by
  obtain ⟨n, rfl⟩ : ∃ k, n = k + 3 := ⟨n - 3, by omega⟩
  have hfaces' : (behindBrackets c).Faces e (w ++ []) := by rwa [List.append_nil]
  have hweakest : ¬ Power.call ≤ Power.weakest := by decide
  obtain ⟨c₆, hrun, -, hc₆⟩ := (opensOff_of_occupies ht).read (n := n + 1) hweakest
    (by omega) hfaces' (Cursor.unasked_nil (by simp [he]))
  have hkind : c₆.kind = .mark .semicolon := hc₆.kind_eq_end.trans he
  have hnext : c₆.advance.kind = .eof := hc₆.kind_advance.trans hlast
  have hstmt : ∃ s s', stmt .standard (n + 3) c =
      .ok (.declare c.advance.current.value false false (.emptyArray t s) s') c₆.advance := by
    refine ⟨⟨c.advance.advance.advance.position, c₆.previousEnd⟩,
      ⟨c.position, c₆.advance.previousEnd⟩, ?_⟩
    rw [stmt_declares hc, bind_of_ok hrun, bind_of_ok (spanFrom_ok _ _),
      bind_of_ok (exprTail_of_semicolon hkind), bind_of_ok (expect_of_kind hkind),
      bind_of_ok (spanFrom_ok _ _)]
    rfl
  obtain ⟨s, s', hstmt⟩ := hstmt
  have hbody : untilEnd (stmt .standard (n + 3)) (n + 3) c = .ok [_] c₆.advance :=
    untilEnd_of_item (by simp [hc.word]) hstmt (untilEnd_of_eof hnext)
  refine ⟨_, _, bind_of_ok hbody, ?_⟩
  simp [Block.unplaced, Stmt.unplaced, Expr.unplaced]

/-- An annotation that goes no further is a fault, also if a `??` is left behind it: then what
follows the `??` is no operand. -/
theorem stuck_program {n : Nat} {P : Prop} (hc : Declares c)
    (htype : Stuck e P (typeExpr .standard n .weakest (behindBrackets c)))
    (hP : P → e.kind = .mark .questionQuestion ∧
      Grammar.standardExprStart e.advance.kind = none) :
    Stuck e False (program .standard (n + 2) c) := by
  have hstmt : Stuck e False (stmt .standard (n + 2) c) := by
    rw [stmt_declares hc]
    refine htype.bind fun hp t c' hc' => .bind_ok (spanFrom_ok _ _) ?_
    obtain ⟨hkind, hnext⟩ := hP hp
    refine (stuck_exprTail (hc'.kind_eq_end.trans hkind) ?_).bind False.elim
    rwa [hc'.kind_advance]
  have hbody : Stuck e False (untilEnd (stmt .standard (n + 2)) (n + 2) c) := by
    change Stuck e False (Round.untilEnd _ _ c)
    have hget : (get : Parser Cursor) c = .ok c c := rfl
    refine .bind_ok hget ?_
    rw [if_pos (by simp [Cursor.hasTokens, hc.word])]
    exact hstmt.bind False.elim
  exact hbody.bind False.elim

end Parse

/-! ## Texts -/

namespace Glued

variable {us : List Token} {w : List Terminal}

/-- A terminal that is never one of a pair has a token of its own. -/
theorem exists_cons {x : Terminal} {xs : List Terminal} (h : Glued us (x :: xs))
    (hx : ∀ m, x = .mark m → m.doubled? = none) :
    ∃ u vs, us = u :: vs ∧ u.terminal? = some x ∧ Glued vs xs := by
  cases h with
  | one hu h => exact ⟨_, _, rfl, hu, h⟩
  | two hm => exact absurd (hm.symm.trans (hx _ rfl)) (Option.some_ne_none _)

/-- So has one that closes the others. -/
theorem exists_concat {m : Mark} (hm : m.doubled? = none) (h : Glued us (w ++ [.mark m])) :
    ∃ vs v, us = vs ++ [v] ∧ v.kind = .mark m ∧ Glued vs w := by
  generalize hz : w ++ [.mark m] = z at h
  induction h generalizing w with
  | nil => simp at hz
  | @one u us x xs hu h ih =>
    cases w with
    | nil =>
      obtain ⟨rfl, rfl⟩ := List.cons_eq_cons.mp hz
      cases h
      exact ⟨[], u, rfl, Token.kind_of_terminal? hu, .nil⟩
    | cons y w =>
      obtain ⟨rfl, hxs⟩ := List.cons_eq_cons.mp hz
      obtain ⟨vs, v, rfl, hv, hvs⟩ := ih hxs
      exact ⟨u :: vs, v, rfl, hv, .one hu hvs⟩
  | @two u us k d xs hk hu h ih =>
    cases w with
    | nil => simp at hz
    | cons y w =>
      obtain ⟨rfl, hrest⟩ := List.cons_eq_cons.mp hz
      cases w with
      | nil =>
        obtain ⟨hmark, -⟩ := List.cons_eq_cons.mp hrest
        cases hmark
        exact absurd (hk.symm.trans hm) (Option.some_ne_none _)
      | cons y' w =>
        obtain ⟨rfl, hxs⟩ := List.cons_eq_cons.mp hrest
        obtain ⟨vs, v, rfl, hv, hvs⟩ := ih hxs
        exact ⟨u :: vs, v, rfl, hv, .two hk hu hvs⟩

end Glued

/-- A run with any budget that is enough decides. -/
theorem parse_of_program {tokens : List Token} {file : String} {n : Nat} {b : Block} {c : Cursor}
    (hn : (Cursor.ofTokens tokens file).budget ≤ n)
    (h : Parse.program .standard n (Cursor.ofTokens tokens file) = .ok b c) :
    parse tokens file = .ok b := by
  obtain ⟨b', c', hrun, -, hp⟩ | ⟨d, c', -, -, hp⟩ :=
    Parser.ends_run (fun _ _ _ hn hm => Parse.descends_program hn hm) Block.eq_of_wholeAlike
      (Cursor.ofTokens tokens file)
  · have hsame := (hp n hn).symm.trans h
    cases hsame
    exact congrArg Prod.fst hrun
  · have hsame := (hp n hn).symm.trans h
    cases hsame

theorem parse_of_stuck {tokens : List Token} {file : String} {n : Nat} {e : Cursor}
    (hn : (Cursor.ofTokens tokens file).budget ≤ n)
    (h : Parser.Stuck e False (Parse.program .standard n (Cursor.ofTokens tokens file))) :
    ∃ d, parse tokens file = .error d := by
  obtain ⟨b, c, -, -, hp⟩ | ⟨d, c, hrun, -, -⟩ :=
    Parser.ends_run (fun _ _ _ hn hm => Parse.descends_program hn hm) Block.eq_of_wholeAlike
      (Cursor.ofTokens tokens file)
  · have hsame : Parse.program .standard n (Cursor.ofTokens tokens file) = .ok b c := hp n hn
    rw [hsame] at h
    exact h.1.elim
  · exact ⟨d, congrArg Prod.fst hrun⟩

/-- What is written before an annotation: `let a = []`. -/
def arrayOf : Setting :=
  [(.word .letWord, true), (.name "a", true), (.mark .assign, true), (.mark .openBracket, false),
    (.mark .closeBracket, false)]

/-- The declaration of an empty array, with the annotation as it is set. -/
def arraySetting (xs : Setting) : Setting := arrayOf ++ (xs ++ [(.mark .semicolon, false)])

/-- Its text. -/
def arraySource (xs : Setting) : String := String.ofList (arraySetting xs).text

/-- Its tree. -/
def arrayProgram (t : TypeExpr) : Block :=
  .mk [.declare "a" false false (.emptyArray t.unplaced .nowhere) .nowhere] .nowhere

/-- The tokens of such a declaration: `us` are all but the closing one, `vs` those of the
annotation. -/
structure ArrayTokens (us vs : List Token) (semicolon : Token) (c : Cursor) : Prop where
  declares : Parse.Declares c
  name : c.advance.current.value = "a"
  behind : ∃ p, Parse.behindBrackets c = ⟨p, vs ++ [semicolon], c.last⟩
  semicolon : semicolon.kind = .mark .semicolon
  clash : (∃ u ∈ us, Setting.IsClash u.kind) ↔ ∃ u ∈ vs, Setting.IsClash u.kind

theorem Glued.arrayTokens {us : List Token} {w : List Terminal} (p : Position) (last : EndToken)
    (h : Glued us (arrayOf.map (·.1) ++ (w ++ [.mark .semicolon]))) :
    ∃ vs semicolon, ArrayTokens us vs semicolon ⟨p, us, last⟩ ∧ Glued vs w := by
  obtain ⟨x, us, rfl, hx, h⟩ := h.exists_cons (fun _ hword => by cases hword)
  obtain ⟨y, us, rfl, hy, h⟩ := h.exists_cons (fun _ hname => by cases hname)
  obtain ⟨z, us, rfl, hz, h⟩ := h.exists_cons (by rintro m ⟨⟩; rfl)
  obtain ⟨o, us, rfl, ho, h⟩ := h.exists_cons (by rintro m ⟨⟩; rfl)
  obtain ⟨k, us, rfl, hk, h⟩ := h.exists_cons (by rintro m ⟨⟩; rfl)
  obtain ⟨vs, v, rfl, hv, h⟩ := h.exists_concat rfl
  have hxkind : x.kind = .word .letWord := Token.kind_of_terminal? hx
  have hykind : y.kind = .identifier := Token.kind_of_terminal? hy
  have hzkind : z.kind = .mark .assign := Token.kind_of_terminal? hz
  have hokind : o.kind = .mark .openBracket := Token.kind_of_terminal? ho
  have hkkind : k.kind = .mark .closeBracket := Token.kind_of_terminal? hk
  refine ⟨vs, v, ⟨⟨hxkind, hykind, hzkind, hokind, hkkind⟩, Token.value_of_terminal? hy rfl,
    ⟨k.span.stop, rfl⟩, hv, ?_⟩, h⟩
  simp [Setting.IsClash, or_and_right, exists_or, hxkind, hykind, hzkind, hokind, hkkind, hv]

/-! ## Settings of the declaration -/

section

variable {xs : Setting} {w : List Terminal}

theorem clashes_array_iff :
    (arraySetting xs).Clashes ↔ xs.Clashes := by
  constructor
  · intro h
    have hbehind : Setting.Clashes (xs ++ [(.mark .semicolon, false)]) := by
      simpa [arraySetting, arrayOf, Setting.clashes_cons] using h
    obtain ⟨m, blank, before, after, hm, h⟩ := hbehind
    rcases List.eq_nil_or_concat after with rfl | ⟨after, z, hafter⟩
    · -- the last of the pair would be the semicolon
      have hassoc : before ++ (Terminal.mark m, false) :: [(.mark m, blank)] =
          (before ++ [(.mark m, false)]) ++ [(.mark m, blank)] := by simp
      rw [hassoc] at h
      have hlast := List.append_inj_right' h rfl
      obtain rfl | rfl := hm <;> simp at hlast
    · rw [List.concat_eq_append] at hafter
      subst hafter
      have hassoc : before ++ (Terminal.mark m, false) :: (.mark m, blank) :: (after ++ [z]) =
          (before ++ (.mark m, false) :: (.mark m, blank) :: after) ++ [z] := by simp
      rw [hassoc] at h
      exact ⟨m, blank, before, after, hm, List.append_inj_left' h rfl⟩
  · rintro ⟨m, blank, before, after, hm, rfl⟩
    exact ⟨m, blank, arrayOf ++ before, after ++ [(.mark .semicolon, false)], hm,
      by simp [arraySetting]⟩

theorem wellFormed_array (hwell : ∀ x ∈ xs, x.1.WellFormed) :
    ∀ x ∈ arraySetting xs, x.1.WellFormed := by
  have hname : (Terminal.name "a").WellFormed := by
    refine ⟨⟨'a', [], rfl, rfl, List.forall_mem_nil _⟩, fun k => ?_⟩
    cases k <;> decide
  simp only [arraySetting, arrayOf, List.forall_mem_append, List.forall_mem_cons]
  exact ⟨⟨trivial, hname, trivial, trivial, trivial, List.forall_mem_nil _⟩, hwell, trivial,
    List.forall_mem_nil _⟩

theorem not_isClash_array (hfree : ∀ x ∈ xs, ¬ Setting.IsClash x.1.kind) :
    ∀ x ∈ arraySetting xs, ¬ Setting.IsClash x.1.kind := by
  simp only [arraySetting, arrayOf, List.forall_mem_append, List.forall_mem_cons]
  simpa [Setting.IsClash, Terminal.kind] using hfree

theorem isChain_array (hw : Edged (xs.map (·.1))) :
    (arraySetting xs).IsChain Setting.Follows := by
  have hchain := hw.behind (m := .closeBracket) (by decide)
    (hw.before (k := .semicolon) (by decide) (.singleton _))
  let behind : Setting := (.mark .closeBracket, false) :: (xs ++ [(.mark .semicolon, false)])
  have hmap : (behind.map (·.1)).IsChain Terminal.Meets := by simpa [behind] using hchain
  have hbehind : behind.IsChain Setting.Follows :=
    ((List.isChain_map _).mp hmap).imp fun _ _ h => .inr h
  have hbracket : (Terminal.mark .openBracket).Meets (.mark .closeBracket) :=
    Terminal.meets_marks (by decide +kernel)
  refine List.isChain_cons_cons.mpr ⟨.inl rfl, List.isChain_cons_cons.mpr ⟨.inl rfl, ?_⟩⟩
  exact List.isChain_cons_cons.mpr ⟨.inl rfl, List.isChain_cons_cons.mpr ⟨.inr hbracket, hbehind⟩⟩

end

/-! ## The two outcomes -/

/-- No expression starts with a `?`, glued or not, nor with a semicolon. -/
theorem Glued.exprStart_eq_none {us : List Token} {w : List Terminal} (h : Glued us w)
    (hw : ∀ x ∈ w, x.kind = .mark .question) {p : Position} {semicolon : Token} {last : EndToken}
    (hsemicolon : semicolon.kind = .mark .semicolon) :
    Grammar.standardExprStart (Cursor.kind ⟨p, us ++ [semicolon], last⟩) = none := by
  cases h with
  | nil =>
    change Grammar.standardExprStart semicolon.kind = none
    rw [hsemicolon]
    rfl
  | @one u us x xs hu _ =>
    change Grammar.standardExprStart u.kind = none
    rw [Token.kind_of_terminal? hu, hw x List.mem_cons_self]
    rfl
  | @two u us m d xs hm hu _ =>
    obtain rfl : m = .question := TokenKind.mark.inj (hw _ List.mem_cons_self)
    cases hm
    change Grammar.standardExprStart u.kind = none
    rw [hu]
    rfl

/-- Tokens in which only `>` are glued are read as the annotation that they say. -/
theorem parse_of_cuts {t : TypeExpr} (ht : t.Printable) {us vs : List Token}
    {semicolon last : Token} {file : String} (hlast : last.kind = .eof)
    (hus : ArrayTokens us vs semicolon ⟨.start file, us, ⟨last.value, last.span⟩⟩)
    (hvs : Glued vs t.print) (hno : ¬ ∃ u ∈ us, Setting.IsClash u.kind) :
    ∃ b, parse (us ++ [last]) file = .ok b ∧ b.unplaced = arrayProgram t := by
  obtain ⟨p, hbehind⟩ := hus.behind
  have hfree : ∀ v ∈ vs, ¬ Setting.IsClash v.kind := fun v hv hclash =>
    hno (hus.clash.mpr ⟨v, hv, hclash⟩)
  obtain ⟨ts, hcuts, hsays⟩ := hvs.exists_cuts hfree
  obtain ⟨t', ht', hoccupies⟩ := ht.placeable hsays
  have hcursor := Cursor.ofTokens_append us hlast file
  obtain ⟨b, c', hrun, hb⟩ := Parse.program_declares_ok
    (n := (Cursor.ofTokens (us ++ [last]) file).budget + (ts.length + 4))
    (e := ⟨p, [semicolon], ⟨last.value, last.span⟩⟩) hus.declares hoccupies
    (by rw [hbehind]; exact ⟨rfl, vs, hcuts, rfl⟩) hus.semicolon rfl (by omega)
  rw [← hcursor] at hrun
  refine ⟨b, parse_of_program (Nat.le_add_right _ _) hrun, ?_⟩
  rw [hb, hus.name, ht', arrayProgram]

/-- Tokens in which `<` or `?` are glued are not read. -/
theorem parse_of_clash {t : TypeExpr} (ht : t.Printable) {us vs : List Token}
    {semicolon last : Token} {file : String} (hlast : last.kind = .eof)
    (hus : ArrayTokens us vs semicolon ⟨.start file, us, ⟨last.value, last.span⟩⟩)
    (hvs : Glued vs t.print) (hfree : ∀ x ∈ t.print, ¬ Setting.IsClash x.kind)
    (hyes : ∃ u ∈ us, Setting.IsClash u.kind) : ∃ d, parse (us ++ [last]) file = .error d := by
  obtain ⟨p, hbehind⟩ := hus.behind
  obtain ⟨vs₁, k, more, ts, v, m, w, rfl, hprint, hcuts, hsays, hmore, hmk⟩ :=
    hvs.exists_clash hfree (hus.clash.mp hyes)
  -- the annotation as it would stand in tokens that are all apart
  let x := (Terminal.mark m).token
  let q := x :: w.map Terminal.token
  have hall : Says (ts ++ x :: q) t.print := by
    have hw : (w.map Terminal.token).map Token.terminal? = w.map some := by
      simp [Token.terminal?_token]
    have hm : x.terminal? = some (.mark m) := Token.terminal?_token _
    rw [Says, hprint, List.map_append, List.map_append, hsays]
    simp only [q, List.map_cons, hw, hm]
  obtain ⟨t', -, hoccupies⟩ := ht.placeable hall
  let e : Cursor := ⟨p, k :: (more ++ [semicolon]), ⟨last.value, last.span⟩⟩
  have hx : Parse.Clashing x e := by
    obtain ⟨rfl, hk⟩ | ⟨rfl, hk⟩ := hmk
    · exact .inl ⟨rfl, hk⟩
    · exact .inr ⟨rfl, hk⟩
  have hfaces : (Parse.behindBrackets ⟨.start file, us, ⟨last.value, last.span⟩⟩).Faces e ts := by
    rw [hbehind]
    exact ⟨rfl, vs₁, hcuts, by simp [e]⟩
  have hnext : (∀ z ∈ q, z.kind = .mark .question) →
      Grammar.standardExprStart e.advance.kind = none := by
    intro hq
    refine hmore.exprStart_eq_none (fun z hz => ?_) hus.semicolon
    exact hq z.token (List.mem_cons_of_mem _ (List.mem_map_of_mem hz))
  have hcursor := Cursor.ofTokens_append us hlast file
  have hstuck := Parse.stuck_program
    (n := (Cursor.ofTokens (us ++ [last]) file).budget + (ts ++ x :: q).length + 1) hus.declares
    (Parse.jams_of_occupies hoccupies rfl hx (by omega) (by decide) hfaces)
    fun h => ⟨h.1, hnext h.2⟩
  rw [← hcursor] at hstuck
  exact parse_of_stuck (by omega) hstuck

/-- **Blanks in an annotation can be left out, but between two `<` and between two `?`.** With a
blank there, or if there is no such pair, the text is read as the annotation, whatever other blanks
it has; two `>` are cut apart. Otherwise it has a fault. -/
theorem parseSource_array {w : List Terminal} (hw : IsTypeText w)
    (hwell : ∀ x ∈ w, x.WellFormed) (file : String) :
    ∃ t : TypeExpr, t.print = w ∧
      (∃ b, parseSource (arraySource (w.map (·, true))) file = .ok b ∧
        b.unplaced = arrayProgram t) ∧
      ∀ xs : Setting, xs.map (·.1) = w →
        (¬ xs.Clashes → ∃ b, parseSource (arraySource xs) file = .ok b ∧
          b.unplaced = arrayProgram t) ∧
        (xs.Clashes → ∃ d, parseSource (arraySource xs) file = .error d) := by
  obtain ⟨t, ht, rfl⟩ := hw.exists_tree
  have hset : ∀ xs : Setting, xs.map (·.1) = t.print →
      (¬ xs.Clashes → ∃ b, parseSource (arraySource xs) file = .ok b ∧
        b.unplaced = arrayProgram t) ∧
      (xs.Clashes → ∃ d, parseSource (arraySource xs) file = .error d) := by
    intro xs hxs
    have hmem : ∀ x ∈ xs, x.1 ∈ t.print := fun x hx => hxs ▸ List.mem_map_of_mem hx
    have hedged : Edged (xs.map (·.1)) := hxs ▸ hw.edged hwell
    obtain ⟨us, last, htokens, hlast, hglued, hclash⟩ := Setting.tokenize_text
      (wellFormed_array fun x hx => hwell _ (hmem x hx)) (isChain_array hedged)
      (not_isClash_array fun x hx => hw.not_isClash _ (hmem x hx)) file
    have hparse : parseSource (arraySource xs) file = parse (us ++ [last]) file := by
      rw [parseSource, arraySource, htokens]
      rfl
    have hterminals : (arraySetting xs).map (·.1) =
        arrayOf.map (·.1) ++ (t.print ++ [.mark .semicolon]) := by simp [arraySetting, hxs]
    rw [hterminals] at hglued
    obtain ⟨vs, semicolon, hus, hvs⟩ :=
      hglued.arrayTokens (.start file) ⟨last.value, last.span⟩
    rw [clashes_array_iff] at hclash
    rw [hparse, hclash]
    exact ⟨parse_of_cuts ht hlast hus hvs, parse_of_clash ht hlast hus hvs hw.not_isClash⟩
  refine ⟨t, rfl, (hset _ ?_).1 ?_, hset⟩
  · rw [List.map_map]
    exact List.map_id _
  · -- with all the blanks no pair stands side by side
    rintro ⟨m, blank, before, after, -, h⟩
    have hmem : (Terminal.mark m, false) ∈ t.print.map (·, true) := by
      rw [h]
      exact List.mem_append_right _ List.mem_cons_self
    simp at hmem

namespace Sample

/-- `<int,<bool,float>>`. -/
def sumLast : List Terminal :=
  [.mark .less, .name "int", .mark .comma, .mark .less, .name "bool", .mark .comma, .name "float",
    .mark .greater, .mark .greater]

/-- `<<int,bool>,float>`. -/
def sumFirst : List Terminal :=
  [.mark .less, .mark .less, .name "int", .mark .comma, .name "bool", .mark .greater, .mark .comma,
    .name "float", .mark .greater]

/-- `int??`. -/
def askedTwice : List Terminal := [.name "int", .mark .question, .mark .question]

theorem isTypeText_sumLast : IsTypeText sumLast := by
  have hinner := @IsTypeText.sum [[.name "bool"], [.name "float"]] (List.cons_ne_nil _ _)
    (List.forall_mem_cons.mpr ⟨.name _, List.forall_mem_singleton.mpr (.name _)⟩)
  exact @IsTypeText.sum [[.name "int"], _] (List.cons_ne_nil _ _)
    (List.forall_mem_cons.mpr ⟨.name _, List.forall_mem_singleton.mpr hinner⟩)

theorem wellFormed_sumLast : ∀ x ∈ sumLast, x.WellFormed := by
  have hint : (Terminal.name "int").WellFormed := by
    refine ⟨⟨'i', ['n', 't'], rfl, rfl, List.all_eq_true.mp rfl⟩, fun k => ?_⟩
    cases k <;> decide
  have hbool : (Terminal.name "bool").WellFormed := by
    refine ⟨⟨'b', ['o', 'o', 'l'], rfl, rfl, List.all_eq_true.mp rfl⟩, fun k => ?_⟩
    cases k <;> decide
  have hfloat : (Terminal.name "float").WellFormed := by
    refine ⟨⟨'f', ['l', 'o', 'a', 't'], rfl, rfl, List.all_eq_true.mp rfl⟩, fun k => ?_⟩
    cases k <;> decide
  simp only [sumLast, List.forall_mem_cons]
  exact ⟨trivial, hint, trivial, trivial, hbool, trivial, hfloat, trivial, trivial,
    List.forall_mem_nil _⟩

theorem isTypeText_sumFirst : IsTypeText sumFirst := by
  have hinner := @IsTypeText.sum [[.name "int"], [.name "bool"]] (List.cons_ne_nil _ _)
    (List.forall_mem_cons.mpr ⟨.name _, List.forall_mem_singleton.mpr (.name _)⟩)
  exact @IsTypeText.sum [_, [.name "float"]] (List.cons_ne_nil _ _)
    (List.forall_mem_cons.mpr ⟨hinner, List.forall_mem_singleton.mpr (.name _)⟩)

theorem isTypeText_askedTwice : IsTypeText askedTwice :=
  .optional (w := [.name "int", .mark .question]) (.optional (w := [.name "int"]) (.name _))

end Sample

/-- Two `>` need no blank between them. -/
theorem parseSource_array_sumLast :
    IsTypeText Sample.sumLast ∧ (∀ x ∈ Sample.sumLast, x.WellFormed) ∧
      ∃ t : TypeExpr, t.print = Sample.sumLast ∧
        ∃ b, parseSource "let a = []<int,<bool,float>>;" "shell" = .ok b ∧
          b.unplaced = arrayProgram t := by
  obtain ⟨t, ht, -, hset⟩ :=
    parseSource_array Sample.isTypeText_sumLast Sample.wellFormed_sumLast "shell"
  refine ⟨Sample.isTypeText_sumLast, Sample.wellFormed_sumLast, t, ht, ?_⟩
  have hsource : arraySource (Sample.sumLast.map (·, false)) = "let a = []<int,<bool,float>>;" := by
    decide +kernel
  rw [← hsource]
  refine (hset _ rfl).1 ?_
  simp [Sample.sumLast, Setting.clashes_cons, Setting.not_clashes_nil]

/-- Two `<` need one, and two `?`: without it neither annotation is read. -/
theorem parseSource_array_sumFirst :
    IsTypeText Sample.sumFirst ∧ IsTypeText Sample.askedTwice ∧
      (∃ b, parseSource "let a = []< < int , bool > , float > ;" "shell" = .ok b) ∧
      (∃ d, parseSource "let a = []<<int,bool>,float>;" "shell" = .error d) ∧
      (∃ b, parseSource "let a = []int ? ? ;" "shell" = .ok b) ∧
      ∃ d, parseSource "let a = []int??;" "shell" = .error d := by
  have hread : ∀ {x : Except Diagnostic Block}, x.toBool = true → ∃ b, x = .ok b := by
    intro x hx
    cases x with
    | error d => cases hx
    | ok b => exact ⟨b, rfl⟩
  have hfails : ∀ {x : Except Diagnostic Block}, x.toBool = false → ∃ d, x = .error d := by
    intro x hx
    cases x with
    | error d => exact ⟨d, rfl⟩
    | ok b => cases hx
  exact ⟨Sample.isTypeText_sumFirst, Sample.isTypeText_askedTwice, hread (by decide +kernel),
    hfails (by decide +kernel), hread (by decide +kernel), hfails (by decide +kernel)⟩

end Quill
