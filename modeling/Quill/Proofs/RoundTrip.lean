import Quill.Proofs.Taking

/-!
# Parsing undoes printing

A program that is printed is parsed again, whatever places its tokens have, and the tree that comes
out is the one that was printed, up to places.

Statements are taken by induction on the budget: the blocks inside a statement are read with one unit
less, and their terminals are fewer.

Results:
* `takes_stmt`: statements.
* **`parse_print`**: programs.
-/

namespace Quill

open Syntax

/-! ## How printed statements start -/

theorem Terminal.kind_ne_eof (x : Terminal) : x.kind ≠ .eof := by
  cases x <;> intro h <;> cases h

/-- A token that starts an expression announces no statement. -/
theorem standardStmt_eq_none {kind : TokenKind} (h : (Grammar.standardExprStart kind).isSome) :
    Grammar.standardStmt kind = none := by
  cases kind with
  | word k => cases k <;> first | rfl | cases h
  | _ => rfl

namespace Parse

open Quill.Parser

variable {text : Float → String} {n : Nat} {c : Cursor} {rest : List Terminal}

/-! ## Blocks -/

/-- The parser takes the statements that are shorter than the bound, if no `else` follows. -/
def TakesStmts (text : Float → String) (n : Nat) (stmt : Parser Stmt) : Prop :=
  ∀ ⦃s : Stmt⦄ ⦃c : Cursor⦄ ⦃rest : List Terminal⦄, s.Printable text → (s.print text).length < n →
    c.ahead = s.print text ++ rest → rest.head? ≠ some (.word .elseWord) →
    Takes c stmt rest fun s' => s'.unplaced = s.unplaced

/-- No `else` starts the statements, nor what follows them. -/
theorem head?_prints_ne (text : Float → String) (ss : List Stmt) {rest : List Terminal}
    (hrest : rest.head? ≠ some (.word .elseWord)) :
    (Stmt.prints text ss ++ rest).head? ≠ some (.word .elseWord) := by
  cases ss with
  | nil => exact hrest
  | cons s ss =>
    obtain ⟨x, xs, hx, hstart⟩ := s.exists_head text
    rw [Stmt.prints, hx]
    intro h
    cases h
    rcases hstart with h | h <;> cases h

/-- Ahead of a statement there are tokens, and no end of a block. -/
theorem hasTokens_and_kind_ne {s : Stmt} {v : List Terminal} (hc : c.ahead = s.print text ++ v) :
    c.hasTokens = true ∧ c.kind ≠ .mark .closeCurly := by
  obtain ⟨x, xs, hx, hstart⟩ := s.exists_head text
  rw [hx] at hc
  have hkind : c.kind = x.kind := Cursor.kind_of_ahead hc
  constructor
  · simp [Cursor.hasTokens, hkind, x.kind_ne_eof]
  · intro hclose
    rw [StartsStmt, ← hkind, hclose] at hstart
    rcases hstart with h | h <;> cases h

theorem takes_blockBody {stmt : Parser Stmt} (hstmt : TakesStmts text n stmt) {ss : List Stmt} :
    (∀ s ∈ ss, s.Printable text) → (∀ s ∈ ss, (s.print text).length < n) →
    ∀ {k : Nat} {c : Cursor}, ss.length < k →
    c.ahead = Stmt.prints text ss ++ .mark .closeCurly :: rest →
    Takes c (blockBody stmt k) (.mark .closeCurly :: rest)
      fun ss' => ss'.map Stmt.unplaced = ss.map Stmt.unplaced := by
  induction ss with
  | nil =>
    intro _ _ k c hk hc
    obtain ⟨k, rfl⟩ : ∃ j, k = j + 1 := ⟨k - 1, by simp at hk; omega⟩
    refine .peekKind ?_
    rw [if_pos (show c.kind = .mark .closeCurly from Cursor.kind_of_ahead hc)]
    exact .pure hc rfl
  | cons s ss ih =>
    intro hss hlength k c hk hc
    rw [List.length_cons] at hk
    obtain ⟨k, rfl⟩ : ∃ j, k = j + 1 := ⟨k - 1, by omega⟩
    rw [Stmt.prints, List.append_assoc] at hc
    obtain ⟨htokens, hopen⟩ := hasTokens_and_kind_ne hc
    refine .peekKind ?_
    rw [if_neg hopen]
    refine .get ?_
    rw [if_pos htokens]
    refine .bind (hstmt (hss s (by simp)) (hlength s (by simp)) hc (head?_prints_ne text ss
      (head?_cons_ne (by decide)))) ?_
    intro s' c₁ hc₁ hs'
    refine .bind (ih (fun t ht => hss t (List.mem_cons_of_mem s ht))
      (fun t ht => hlength t (List.mem_cons_of_mem s ht)) (by omega) hc₁) ?_
    intro ss' c₂ hc₂ hss'
    exact .pure hc₂ (by rw [List.map_cons, List.map_cons, hs', hss'])

theorem takes_block {stmt : Parser Stmt} (hstmt : TakesStmts text n stmt) {b : Block}
    (hb : b.Printable text) (hn : (b.print text).length ≤ n) (hc : c.ahead = b.print text ++ rest) :
    Takes c (block stmt n) rest fun b' => b'.unplaced = b.unplaced := by
  rw [Block.print_eq, List.length_cons, List.length_append, List.length_singleton] at hn
  rw [Block.print_eq, List.cons_append, List.append_assoc] at hc
  have hcount := length_le_length_prints text b.body
  have hlength : ∀ s ∈ b.body, (s.print text).length < n := fun s hs => by
    have := length_le_prints text hs
    omega
  refine .mark hc fun _ c₁ hc₁ => ?_
  refine .bind (takes_blockBody hstmt hb.body hlength (by omega) hc₁) fun ss' c₂ hc₂ hss' => ?_
  refine .mark hc₂ fun _ c₃ hc₃ => .spanFrom fun s => .pure hc₃ ?_
  rw [Block.unplaced_eq, Block.unplaced_eq, ← hss']
  rfl

/-! ## The forms of statements -/

theorem takes_expr {e : Expr} {x : Terminal} {xs : List Terminal} (he : e.Printable text)
    (hn : (e.print text).length < n) (hx : Grammar.standardExprFollow x.kind = none)
    (hc : c.ahead = e.print text ++ x :: xs) :
    Takes c (expr .standard n .weakest) (x :: xs) fun e' => e'.unplaced = e.unplaced :=
  (opens_print he).takes_weakest hn hx hc

/-- An expression before a block. -/
theorem takes_expr_beforeBlock {e : Expr} {b : Block} (he : e.Printable text)
    (hn : (e.print text).length < n) (hc : c.ahead = e.print text ++ (b.print text ++ rest)) :
    Takes c (expr .standard n .weakest) (b.print text ++ rest)
      fun e' => e'.unplaced = e.unplaced := by
  rw [Block.print_eq] at hc ⊢
  exact takes_expr he hn rfl hc

theorem takes_bindingMark {byReference : Bool}
    (hc : c.ahead = .mark (if byReference then .leftArrow else .assign) :: rest) :
    Takes c bindingMark rest fun b => b = byReference := by
  refine .peekKind ?_
  rw [Cursor.kind_of_ahead hc]
  cases byReference with
  | true => exact .advance hc fun c' hc' => .pure hc' rfl
  | false => exact .advance hc fun c' hc' => .pure hc' rfl

theorem takes_declare {x : String} {isConstant byReference : Bool} {e : Expr} {span : Span}
    (he : e.Printable text) (hn : (e.print text).length < n)
    (hc : c.ahead = (Stmt.declare x isConstant byReference e span).print text ++ rest) :
    Takes c (declare (expr .standard n .weakest)) rest
      fun s' => s'.unplaced = (Stmt.declare x isConstant byReference e span).unplaced := by
  simp only [Stmt.print, List.cons_append, List.append_assoc] at hc
  refine .advance hc fun c₁ hc₁ => .nameOr hc₁ fun t c₂ ht hc₂ => ?_
  refine .bind (takes_bindingMark hc₂) fun b c₃ hc₃ hb => ?_
  refine .bind (takes_expr he hn rfl hc₃) fun e' c₄ hc₄ he' => ?_
  refine .mark hc₄ fun _ c₅ hc₅ => .spanFrom fun s => .pure hc₅ ?_
  rw [show c.current.kind = _ from Cursor.kind_of_ahead hc, ht, hb]
  cases isConstant <;> simp [Stmt.unplaced, he', Terminal.kind]

theorem noneStarts_binding (close : Mark) (bs : List Binding) : NoneStarts Binding.print close bs :=
  fun _ _ => ⟨_, _, rfl, TokenKind.noConfusion⟩

theorem takesItems_binding {close : Mark} (hclose : close ≠ .question) {bs : List Binding}
    (hbs : ∀ b ∈ bs, b.type.Printable) (hn : (commas (bs.map Binding.print)).length < n) :
    TakesItems (binding (typeExpr .standard n .weakest)) Binding.print Binding.unplaced close bs := by
  intro b hb c m xs hm hc
  have hlength := length_le_commas (List.mem_map_of_mem (f := Binding.print) hb)
  simp only [Binding.print, List.length_cons, List.cons_append] at hlength hc
  refine .name hc fun t c₁ ht hc₁ => .mark hc₁ fun _ c₂ hc₂ => ?_
  have hnext : (Terminal.mark m :: xs).head? ≠ some (.mark .question) := by
    rcases hm with rfl | rfl
    · exact head?_cons_ne (by decide)
    · exact head?_cons_ne fun h => hclose (Terminal.mark.inj h)
  refine .bind ((opensType_print (hbs b hb)).takes (by omega) hc₂ hnext) fun t' c₃ hc₃ ht' => ?_
  exact .spanFrom fun s => .pure hc₃ (by simp [Binding.unplaced, ht, ht'])

theorem takes_struct {x : String} {fields : List Binding} {span : Span}
    (hfields : ∀ b ∈ fields, b.type.Printable)
    (hn : ((Stmt.struct x fields span).print text).length ≤ n)
    (hc : c.ahead = (Stmt.struct x fields span).print text ++ rest) :
    Takes c (struct (typeExpr .standard n .weakest) n) rest
      fun s' => s'.unplaced = (Stmt.struct x fields span).unplaced := by
  simp only [Stmt.print, List.cons_append, List.append_assoc, List.length_cons,
    List.length_append] at hc hn
  have hstart := noneStarts_binding .closeCurly fields
  have hlength := hstart.length_le
  refine .advance hc fun c₁ hc₁ => .name hc₁ fun t c₂ ht hc₂ => .mark hc₂ fun _ c₃ hc₃ => ?_
  refine .bind (takes_commaOptional (by decide) hstart
    (takesItems_binding (by decide) hfields (by omega)) (by omega) hc₃) fun fs c₄ hc₄ hfs => ?_
  refine .mark hc₄ fun _ c₅ hc₅ => .spanFrom fun s => .pure hc₅ ?_
  simp only [Stmt.unplaced, ht, hfs]

theorem takes_resultType {result : Option TypeExpr} {b : Block} (hresult : ∀ t ∈ result, t.Printable)
    (hn : (printResult result).length ≤ n)
    (hc : c.ahead = printResult result ++ (b.print text ++ rest)) :
    Takes c (resultType (typeExpr .standard n .weakest)) (b.print text ++ rest)
      fun r => r.map TypeExpr.unplaced = result.map TypeExpr.unplaced := by
  rw [Block.print_eq] at hc ⊢
  cases result with
  | none => exact .decline (by rw [Cursor.kind_of_ahead hc]; decide) (.pure hc rfl)
  | some t =>
    refine .accept rfl hc fun c₁ hc₁ => ?_
    have hlength : t.print.length < n := hn
    refine .bind ((opensType_print (hresult t rfl)).takes hlength hc₁
      (head?_cons_ne (by decide))) fun t' c₂ hc₂ ht' => ?_
    exact .pure hc₂ (by simp [ht'])

theorem takes_breakLoop {span : Span}
    (hc : c.ahead = (Stmt.breakLoop span).print text ++ rest) :
    Takes c breakLoop rest fun s' => s'.unplaced = (Stmt.breakLoop span).unplaced :=
  .advance hc fun _ hc₁ => .mark hc₁ fun _ _ hc₂ => .spanFrom fun _ => .pure hc₂ rfl

theorem takes_giveBack {value : Option Expr} {span : Span} (hvalue : ∀ e ∈ value, e.Printable text)
    (hn : ((Stmt.giveBack value span).print text).length ≤ n)
    (hc : c.ahead = (Stmt.giveBack value span).print text ++ rest) :
    Takes c (giveBack (expr .standard n .weakest)) rest
      fun s' => s'.unplaced = (Stmt.giveBack value span).unplaced := by
  cases value with
  | none =>
    refine .advance hc fun c₁ hc₁ => ?_
    have hnone : Takes c₁ (resultValue (expr .standard n .weakest)) (.mark .semicolon :: rest)
        fun v => v = none := by
      refine .peekKind ?_
      rw [if_pos (show c₁.kind = .mark .semicolon from Cursor.kind_of_ahead hc₁)]
      exact .pure hc₁ rfl
    refine .bind hnone fun v c₂ hc₂ hv => .mark hc₂ fun _ c₃ hc₃ => .spanFrom fun s => ?_
    exact .pure hc₃ (by rw [hv]; rfl)
  | some e =>
    simp only [Stmt.print, List.cons_append, List.append_assoc, List.length_cons,
      List.length_append] at hc hn
    refine .advance hc fun c₁ hc₁ => ?_
    have hsome : Takes c₁ (resultValue (expr .standard n .weakest)) (.mark .semicolon :: rest)
        fun v => v.map Expr.unplaced = some e.unplaced := by
      obtain ⟨x, xs, hx, hstart⟩ := e.exists_head text
      refine .peekKind ?_
      rw [if_neg]
      · refine .bind (takes_expr (hvalue e rfl) (by omega) rfl hc₁) fun e' c₂ hc₂ he' => ?_
        exact .pure hc₂ (by simp [he'])
      · intro hkind
        have hkind' : c₁.kind = x.kind := by
          rw [hx] at hc₁
          exact Cursor.kind_of_ahead hc₁
        rw [← hkind', hkind] at hstart
        cases hstart
    refine .bind hsome fun v c₂ hc₂ hv => .mark hc₂ fun _ c₃ hc₃ => .spanFrom fun s => ?_
    exact .pure hc₃ (by simp [Stmt.unplaced, hv])

section

variable {block : Parser Block}
  (hblock : ∀ ⦃b : Block⦄ ⦃c : Cursor⦄ ⦃rest : List Terminal⦄, b.Printable text →
    (b.print text).length ≤ n → c.ahead = b.print text ++ rest →
    Takes c block rest fun b' => b'.unplaced = b.unplaced)

include hblock

/-- An expression, the block behind it, and what follows. -/
theorem takes_exprBlock {α : Type} {f : Expr → Block → Parser α} {zs : List Terminal} {R : α → Prop}
    {e : Expr} {b : Block} (he : e.Printable text) (hb : b.Printable text)
    (hn : (e.print text).length + (b.print text).length ≤ n)
    (hc : c.ahead = e.print text ++ (b.print text ++ rest))
    (h : ∀ e' b' c', e'.unplaced = e.unplaced → b'.unplaced = b.unplaced → c'.ahead = rest →
      Takes c' (f e' b') zs R) :
    Takes c (expr .standard n .weakest >>= fun e => block >>= f e) zs R := by
  have hpos : 0 < (b.print text).length := by
    rw [Block.print_eq]
    exact Nat.succ_pos _
  refine .bind (takes_expr_beforeBlock he (by omega) hc) fun e' c₁ hc₁ he' => ?_
  exact .bind (hblock hb (by omega) hc₁) fun b' c₂ hc₂ hb' => h e' b' c₂ he' hb' hc₂

theorem takes_function {x : String} {params : List Binding} {result : Option TypeExpr}
    {body : Block} {span : Span} (hparams : ∀ b ∈ params, b.type.Printable)
    (hresult : ∀ t ∈ result, t.Printable) (hbody : body.Printable text)
    (hn : ((Stmt.function x params result body span).print text).length ≤ n)
    (hc : c.ahead = (Stmt.function x params result body span).print text ++ rest) :
    Takes c (function (typeExpr .standard n .weakest) block n) rest
      fun s' => s'.unplaced = (Stmt.function x params result body span).unplaced := by
  simp only [Stmt.print, List.cons_append, List.append_assoc, List.length_cons,
    List.length_append] at hc hn
  have hstart := noneStarts_binding .closeParen params
  have hlength := hstart.length_le
  refine .advance hc fun c₁ hc₁ => .name hc₁ fun t c₂ ht hc₂ => .mark hc₂ fun _ c₃ hc₃ => ?_
  refine .bind (takes_commaClosed (by decide) hstart
    (takesItems_binding (by decide) hparams (by omega)) (by omega) hc₃) fun ps c₄ hc₄ hps => ?_
  refine .mark hc₄ fun _ c₅ hc₅ => ?_
  refine .bind (takes_resultType hresult (by omega) hc₅) fun r c₆ hc₆ hr => ?_
  refine .bind (hblock hbody (by omega) hc₆) fun b c₇ hc₇ hb => .spanFrom fun s => .pure hc₇ ?_
  simp only [Stmt.unplaced, ht, hps, hr, hb]

/-- What follows the first arm of a branch, by induction on the budget. -/
theorem takes_alternative (k : Nat) : ∀ {a : Alternative} {c : Cursor}, a.Printable text →
    (a.print text).length ≤ n → (a.print text).length < k → c.ahead = a.print text ++ rest →
    rest.head? ≠ some (.word .elseWord) →
    Takes c (alternative (expr .standard n .weakest) block k) rest
      fun a' => a'.unplaced = a.unplaced := by
  induction k with
  | zero => exact fun _ _ hk => absurd hk (Nat.not_lt_zero _)
  | succ k ih =>
    intro a c ha hn hk hc hrest
    cases ha with
    | nothing =>
      refine .decline (fun hkind => hrest ?_) (.pure hc rfl)
      have hhead := Cursor.head?_ahead (Token.terminal?_word hkind)
      rwa [hc] at hhead
    | otherwise hb =>
      rw [Alternative.print, List.length_cons] at hn
      refine .accept rfl hc fun c₁ hc₁ => .peekKind ?_
      have hkind : c₁.kind ≠ .word .ifWord := by
        have hcurly := hc₁
        rw [Block.print_eq] at hcurly
        rw [Cursor.kind_of_ahead hcurly]
        decide
      rw [if_neg hkind]
      refine .bind (hblock hb (by omega) hc₁) fun b c₂ hc₂ hb' => .pure hc₂ ?_
      simp only [Alternative.unplaced, hb']
    | elseIf htest hbody hrest' =>
      simp only [Alternative.print, List.cons_append, List.append_assoc, List.length_cons,
        List.length_append] at hc hn hk
      refine .accept rfl hc fun c₁ hc₁ => .peekKind ?_
      rw [if_pos (show c₁.kind = .word .ifWord from Cursor.kind_of_ahead hc₁)]
      refine .word hc₁ fun _ c₂ hc₂ => ?_
      refine takes_exprBlock hblock htest hbody (by omega) hc₂ fun test b c₄ htest' hb hc₄ => ?_
      refine .bind (ih hrest' (by omega) (by omega) hc₄ hrest) fun a c₅ hc₅ ha => ?_
      refine .spanFrom fun s => .pure hc₅ ?_
      simp only [Alternative.unplaced, htest', hb, ha]

theorem takes_branch {test : Expr} {body : Block} {alternative : Alternative} {span : Span}
    (htest : test.Printable text) (hbody : body.Printable text)
    (halternative : alternative.Printable text)
    (hn : ((Stmt.branch test body alternative span).print text).length ≤ n)
    (hc : c.ahead = (Stmt.branch test body alternative span).print text ++ rest)
    (hrest : rest.head? ≠ some (.word .elseWord)) :
    Takes c (branch (expr .standard n .weakest) block n) rest
      fun s' => s'.unplaced = (Stmt.branch test body alternative span).unplaced := by
  simp only [Stmt.print, List.cons_append, List.append_assoc, List.length_cons,
    List.length_append] at hc hn
  refine .word hc fun _ c₁ hc₁ => ?_
  refine takes_exprBlock hblock htest hbody (by omega) hc₁ fun test' b c₃ htest' hb hc₃ => ?_
  refine .bind (takes_alternative hblock n halternative (by omega) (by omega) hc₃ hrest) ?_
  intro a c₄ hc₄ ha
  exact .spanFrom fun s => .pure hc₄ (by simp only [Stmt.unplaced, htest', hb, ha])

theorem takes_whileLoop {test : Expr} {body : Block} {span : Span} (htest : test.Printable text)
    (hbody : body.Printable text) (hn : ((Stmt.whileLoop test body span).print text).length ≤ n)
    (hc : c.ahead = (Stmt.whileLoop test body span).print text ++ rest) :
    Takes c (whileLoop (expr .standard n .weakest) block) rest
      fun s' => s'.unplaced = (Stmt.whileLoop test body span).unplaced := by
  simp only [Stmt.print, List.cons_append, List.append_assoc, List.length_cons,
    List.length_append] at hc hn
  refine .advance hc fun c₁ hc₁ => ?_
  refine takes_exprBlock hblock htest hbody (by omega) hc₁ fun test' b c₃ htest' hb hc₃ => ?_
  refine .spanFrom fun s => .pure hc₃ ?_
  simp only [Stmt.unplaced, htest', hb]

theorem takes_repeatLoop {count : Expr} {body : Block} {span : Span} (hcount : count.Printable text)
    (hbody : body.Printable text) (hn : ((Stmt.repeatLoop count body span).print text).length ≤ n)
    (hc : c.ahead = (Stmt.repeatLoop count body span).print text ++ rest) :
    Takes c (repeatLoop (expr .standard n .weakest) block) rest
      fun s' => s'.unplaced = (Stmt.repeatLoop count body span).unplaced := by
  simp only [Stmt.print, List.cons_append, List.append_assoc, List.length_cons,
    List.length_append] at hc hn
  refine .advance hc fun c₁ hc₁ => ?_
  refine takes_exprBlock hblock hcount hbody (by omega) hc₁ fun count' b c₃ hcount' hb hc₃ => ?_
  refine .spanFrom fun s => .pure hc₃ ?_
  simp only [Stmt.unplaced, hcount', hb]

theorem takes_rangeLoop {x : String} {low high : Expr} {op : RangeOp} {body : Block} {span : Span}
    (hlow : low.Printable text) (hhigh : high.Printable text) (hbody : body.Printable text)
    (hn : ((Stmt.rangeLoop x low op high body span).print text).length ≤ n)
    (hc : c.ahead = (Stmt.rangeLoop x low op high body span).print text ++ rest) :
    Takes c (forLoop (expr .standard n .weakest) block) rest
      fun s' => s'.unplaced = (Stmt.rangeLoop x low op high body span).unplaced := by
  simp only [Stmt.print, List.cons_append, List.append_assoc, List.length_cons,
    List.length_append] at hc hn
  refine .advance hc fun c₁ hc₁ => .nameOr hc₁ fun t c₂ ht hc₂ => .word hc₂ fun _ c₃ hc₃ => ?_
  refine .bind (takes_expr hlow (by omega) (by cases op <;> rfl) hc₃) fun low' c₄ hc₄ hlow' => ?_
  refine .peekKind ?_
  rw [show RangeOp.ofKind? c₄.kind = some op by
    rw [Cursor.kind_of_ahead hc₄]; cases op <;> rfl]
  refine .advance hc₄ fun c₅ hc₅ => ?_
  refine takes_exprBlock hblock hhigh hbody (by omega) hc₅ fun high' b c₇ hhigh' hb hc₇ => ?_
  refine .spanFrom fun s => .pure hc₇ ?_
  simp only [Stmt.unplaced, ht, hlow', hhigh', hb]

theorem takes_eachLoop {x : String} {collection : Expr} {body : Block} {span : Span}
    (hcollection : collection.Printable text) (hbody : body.Printable text)
    (hn : ((Stmt.eachLoop x collection body span).print text).length ≤ n)
    (hc : c.ahead = (Stmt.eachLoop x collection body span).print text ++ rest) :
    Takes c (forLoop (expr .standard n .weakest) block) rest
      fun s' => s'.unplaced = (Stmt.eachLoop x collection body span).unplaced := by
  simp only [Stmt.print, List.cons_append, List.append_assoc, List.length_cons,
    List.length_append] at hc hn
  refine .advance hc fun c₁ hc₁ => .nameOr hc₁ fun t c₂ ht hc₂ => .word hc₂ fun _ c₃ hc₃ => ?_
  refine .bind (takes_expr_beforeBlock hcollection (by omega) hc₃) fun items c₄ hc₄ hitems => ?_
  refine .peekKind ?_
  have hnone : RangeOp.ofKind? c₄.kind = none := by
    have hcurly := hc₄
    rw [Block.print_eq] at hcurly
    rw [Cursor.kind_of_ahead hcurly]
    rfl
  rw [hnone]
  refine .bind (hblock hbody (by omega) hc₄) fun b c₅ hc₅ hb => .spanFrom fun s => .pure hc₅ ?_
  simp only [Stmt.unplaced, ht, hitems, hb]

end

/-! A statement that starts with an expression. -/

theorem isCall_unplaced (e : Expr) : isCall e.unplaced = isCall e := by
  cases e <;> rfl

theorem takes_assign {target value : Expr} {byReference : Bool} {span : Span}
    (htarget : target.Printable text) (hvalue : value.Printable text)
    (hn : ((Stmt.assign target value byReference span).print text).length ≤ n)
    (hc : c.ahead = (Stmt.assign target value byReference span).print text ++ rest) :
    Takes c (plain (expr .standard n .weakest)) rest
      fun s' => s'.unplaced = (Stmt.assign target value byReference span).unplaced := by
  simp only [Stmt.print, List.cons_append, List.append_assoc, List.length_cons,
    List.length_append] at hc hn
  refine .bind (takes_expr htarget (by omega) (by cases byReference <;> rfl) hc) ?_
  intro target' c₁ hc₁ htarget'
  have hassign : Takes c₁ (assign (expr .standard n .weakest) target') rest
      fun s' => s'.unplaced = (Stmt.assign target value byReference span).unplaced := by
    refine .advance hc₁ fun c₂ hc₂ => ?_
    refine .bind (takes_expr hvalue (by omega) rfl hc₂) fun value' c₃ hc₃ hvalue' => ?_
    refine .mark hc₃ fun _ c₄ hc₄ => .spanFrom fun s => .pure hc₄ ?_
    rw [show c₁.current.kind = _ from Cursor.kind_of_ahead hc₁]
    cases byReference <;> simp [Stmt.unplaced, htarget', hvalue', Terminal.kind]
  refine .peekKind ?_
  rw [Cursor.kind_of_ahead hc₁]
  cases byReference with
  | true => exact hassign
  | false => exact hassign

theorem takes_update {target : Expr} {m : Mark} (htarget : target.Printable text)
    (hm : m = .plusPlus ∨ m = .minusMinus) (hn : (target.print text).length < n)
    (hc : c.ahead = target.print text ++ .mark m :: .mark .semicolon :: rest) :
    Takes c (plain (expr .standard n .weakest)) rest fun s' => s'.unplaced =
      if m = .plusPlus then .increment target.unplaced .nowhere
      else .decrement target.unplaced .nowhere := by
  refine .bind (takes_expr htarget hn (by rcases hm with rfl | rfl <;> rfl) hc) ?_
  intro target' c₁ hc₁ htarget'
  have hkind : c₁.kind = .mark m := Cursor.kind_of_ahead hc₁
  have hupdate : Takes c₁ (update target') rest fun s' => s'.unplaced =
      if m = .plusPlus then .increment target.unplaced .nowhere
      else .decrement target.unplaced .nowhere := by
    refine .advance hc₁ fun c₂ hc₂ => .mark hc₂ fun _ c₃ hc₃ => .spanFrom fun s => ?_
    rw [show c₁.current.kind = .mark m from hkind]
    rcases hm with rfl | rfl
    · exact .pure hc₃ (by simp only [Stmt.unplaced, htarget', if_true])
    · exact .pure hc₃ (by simp only [Stmt.unplaced, htarget']; rfl)
  refine .peekKind ?_
  rw [hkind]
  rcases hm with rfl | rfl
  · exact hupdate
  · exact hupdate

theorem takes_perform {e : Expr} {span : Span} (he : e.Printable text) (hcall : isCall e = true)
    (hn : ((Stmt.perform e span).print text).length ≤ n)
    (hc : c.ahead = (Stmt.perform e span).print text ++ rest) :
    Takes c (plain (expr .standard n .weakest)) rest
      fun s' => s'.unplaced = (Stmt.perform e span).unplaced := by
  simp only [Stmt.print, List.cons_append, List.append_assoc, List.length_cons,
    List.length_append] at hc hn
  refine .bind (takes_expr he (by omega) rfl hc) fun e' c₁ hc₁ he' => .peekKind ?_
  have hcall' : isCall e' = true := by rw [← isCall_unplaced, he', isCall_unplaced, hcall]
  rw [Cursor.kind_of_ahead hc₁]
  change Takes c₁ (perform e') _ _
  unfold perform
  rw [if_pos hcall']
  refine .advance hc₁ fun c₂ hc₂ => .spanFrom fun s => .pure hc₂ ?_
  simp only [Stmt.unplaced, he']

/-! ## Statements -/

/-- What starts with an expression is read as a plain statement. -/
theorem stmt_eq_none {e : Expr} {v : List Terminal} (hc : c.ahead = e.print text ++ v) :
    Grammar.standard.stmt c.kind = none := by
  obtain ⟨x, xs, hx, hstart⟩ := e.exists_head text
  rw [hx] at hc
  rw [Cursor.kind_of_ahead hc]
  exact standardStmt_eq_none hstart

/-- **Printed statements are taken**, by induction on the budget. -/
theorem takes_stmt (text : Float → String) (n : Nat) : TakesStmts text n (stmt .standard n) := by
  induction n with
  | zero => exact fun _ _ _ _ hn => absurd hn (Nat.not_lt_zero _)
  | succ n ih =>
    intro s c rest hs hn hc hrest
    have hn : (s.print text).length ≤ n := by omega
    have hblock : ∀ ⦃b : Block⦄ ⦃c : Cursor⦄ ⦃rest : List Terminal⦄, b.Printable text →
        (b.print text).length ≤ n → c.ahead = b.print text ++ rest →
        Takes c (block (stmt .standard n) n) rest fun b' => b'.unplaced = b.unplaced :=
      fun _ _ _ => takes_block ih
    refine .peekKind ?_
    cases hs with
    | @declare x isConstant byReference e span he =>
      have hform : Grammar.standard.stmt c.kind = some .declare := by
        rw [Cursor.kind_of_ahead hc]
        cases isConstant <;> rfl
      rw [hform]
      refine takes_declare he ?_ hc
      simp only [Stmt.print, List.length_cons, List.length_append] at hn
      omega
    | struct hfields =>
      rw [Cursor.kind_of_ahead hc]
      exact takes_struct hfields hn hc
    | function hparams hresult hbody =>
      rw [Cursor.kind_of_ahead hc]
      exact takes_function hblock hparams hresult hbody hn hc
    | assign htarget hvalue =>
      rw [stmt_eq_none ((List.append_assoc ..).subst hc)]
      exact takes_assign htarget hvalue hn hc
    | increment htarget =>
      rw [Stmt.print, List.append_assoc] at hc
      rw [Stmt.print, List.length_append] at hn
      rw [stmt_eq_none hc]
      exact takes_update htarget (.inl rfl) (by simp at hn; omega) hc
    | decrement htarget =>
      rw [Stmt.print, List.append_assoc] at hc
      rw [Stmt.print, List.length_append] at hn
      rw [stmt_eq_none hc]
      exact takes_update htarget (.inr rfl) (by simp at hn; omega) hc
    | breakLoop =>
      rw [Cursor.kind_of_ahead hc]
      exact takes_breakLoop hc
    | @giveBack value span hvalue =>
      have hform : Grammar.standard.stmt c.kind = some .giveBack := by
        cases value <;> rw [Cursor.kind_of_ahead hc] <;> rfl
      rw [hform]
      exact takes_giveBack hvalue hn hc
    | branch htest hbody halternative =>
      -- the one statement that looks at what follows it
      rw [Cursor.kind_of_ahead hc]
      exact takes_branch hblock htest hbody halternative hn hc hrest
    | whileLoop htest hbody =>
      rw [Cursor.kind_of_ahead hc]
      exact takes_whileLoop hblock htest hbody hn hc
    | repeatLoop hcount hbody =>
      rw [Cursor.kind_of_ahead hc]
      exact takes_repeatLoop hblock hcount hbody hn hc
    | rangeLoop hlow hhigh hbody =>
      rw [Cursor.kind_of_ahead hc]
      exact takes_rangeLoop hblock hlow hhigh hbody hn hc
    | eachLoop hcollection hbody =>
      rw [Cursor.kind_of_ahead hc]
      exact takes_eachLoop hblock hcollection hbody hn hc
    | perform he hcall =>
      rw [stmt_eq_none ((List.append_assoc ..).subst hc)]
      exact takes_perform he hcall hn hc

/-! ## Programs -/

theorem takes_untilEnd {stmt : Parser Stmt} (hstmt : TakesStmts text n stmt) {ss : List Stmt} :
    (∀ s ∈ ss, s.Printable text) → (∀ s ∈ ss, (s.print text).length < n) →
    ∀ {k : Nat} {c : Cursor}, ss.length < k → c.ahead = Stmt.prints text ss →
    Takes c (untilEnd stmt k) [] fun ss' => ss'.map Stmt.unplaced = ss.map Stmt.unplaced := by
  induction ss with
  | nil =>
    intro _ _ k c hk hc
    obtain ⟨k, rfl⟩ : ∃ j, k = j + 1 := ⟨k - 1, by simp at hk; omega⟩
    refine .get ?_
    rw [if_neg (by simp [Cursor.hasTokens, Cursor.kind_of_ahead_nil hc])]
    exact .pure hc rfl
  | cons s ss ih =>
    intro hss hlength k c hk hc
    rw [List.length_cons] at hk
    obtain ⟨k, rfl⟩ : ∃ j, k = j + 1 := ⟨k - 1, by omega⟩
    rw [Stmt.prints] at hc
    have hnext : (Stmt.prints text ss).head? ≠ some (.word .elseWord) := by
      rw [← List.append_nil (Stmt.prints text ss)]
      exact head?_prints_ne text ss (by simp)
    refine .get ?_
    rw [if_pos (hasTokens_and_kind_ne hc).1]
    refine .bind (hstmt (hss s (by simp)) (hlength s (by simp)) hc hnext) fun s' c₁ hc₁ hs' => ?_
    refine .bind (ih (fun t ht => hss t (List.mem_cons_of_mem s ht))
      (fun t ht => hlength t (List.mem_cons_of_mem s ht)) (by omega) hc₁) ?_
    intro ss' c₂ hc₂ hss'
    exact .pure hc₂ (by rw [List.map_cons, List.map_cons, hs', hss'])

theorem takes_program {b : Block} (hb : b.Printable text)
    (hn : (Stmt.prints text b.body).length < n) (hc : c.ahead = Stmt.prints text b.body) :
    Takes c (program .standard n) [] fun b' => b'.unplaced = b.unplaced := by
  have hcount := length_le_length_prints text b.body
  have hlength : ∀ s ∈ b.body, (s.print text).length < n := fun s hs => by
    have := length_le_prints text hs
    omega
  refine .get (.bind (takes_untilEnd (takes_stmt text n) hb.body hlength (by omega) hc) ?_)
  intro ss' c₁ hc₁ hss'
  refine .get (.pure hc₁ ?_)
  rw [Block.unplaced_eq, Block.unplaced_eq, ← hss']
  rfl

end Parse

theorem length_terminals_le (ts : List Token) : (terminals ts).length ≤ ts.length := by
  induction ts with
  | nil => exact Nat.le_refl _
  | cons t ts ih =>
    cases ht : t.terminal? with
    | none =>
      rw [terminals_cons_eof (Token.kind_of_terminal?_none ht)]
      exact Nat.zero_le _
    | some x =>
      rw [terminals_cons ht]
      exact Nat.succ_le_succ ih

/-- The weight of a cursor counts every token ahead, and the closing one. -/
theorem Cursor.length_rest_lt_weight (c : Cursor) : c.rest.length < c.weight := by
  unfold weight
  induction c.rest with
  | nil => exact Nat.zero_lt_one
  | cons t ts ih =>
    have hpos : 1 ≤ tokenWeight t := by
      unfold tokenWeight
      split_ifs <;> omega
    rw [List.foldr_cons, List.length_cons]
    omega

/-- **Parsing undoes printing.** Tokens that say what a program prints are parsed, and the tree is
that program, up to places. -/
theorem parse_print {text : Float → String} {b : Block} (hb : b.Printable text)
    {tokens : List Token} (htokens : terminals tokens = Stmt.prints text b.body) (file : String) :
    ∃ b', parse tokens file = .ok b' ∧ b'.unplaced = b.unplaced := by
  have hahead : (Cursor.ofTokens tokens file).ahead = Stmt.prints text b.body :=
    (terminals_close file tokens).trans htokens
  have hbudget : (Stmt.prints text b.body).length < (Cursor.ofTokens tokens file).budget := by
    have hlength := length_terminals_le (Cursor.ofTokens tokens file).rest
    have hweight := (Cursor.ofTokens tokens file).length_rest_lt_weight
    rw [← hahead, Cursor.budget]
    exact Nat.lt_succ_of_le (Nat.le_of_lt (Nat.lt_of_le_of_lt hlength hweight))
  obtain ⟨b', c', hrun, -, hb'⟩ := Parse.takes_program hb hbudget hahead
  refine ⟨b', ?_, hb'⟩
  unfold parse Cursor.run
  rw [hrun]

/-- A program whose operands need parentheses on both sides:
`fn g(p: (int) -> int?, q: [<int, bool>]): int { while p(q[0]) < 1 { break; } return no int; }` and
`f(-(a ** b) ** -c, (a ? b : c) ? (no <int, bool?>) : a - (b - 1.5) ?? ([]int)?.n[2]);`. -/
def nestedTree : Block :=
  let s : Span := .nowhere
  let int : TypeExpr := .named "int" s
  let bool : TypeExpr := .named "bool" s
  let x (name : String) : Expr := .symbol name s
  let loop : Stmt :=
    .whileLoop (.binary .less (.call (x "p") [.subscript (x "q") (.int 0 s) s] s) (.int 1 s) s)
      (.mk [.breakLoop s] s) s
  .mk
    [.function "g"
      [⟨"p", .function [int] (.optional int s) s, s⟩, ⟨"q", .array (.sum [int, bool] s) s, s⟩]
      (some int) (.mk [loop, .giveBack (some (.absent int s)) s] s) s,
     .perform (.call (x "f")
      [.binary .power (.unary .negate (.binary .power (x "a") (x "b") s) s)
        (.unary .negate (x "c") s) s,
       .conditional (.conditional (x "a") (x "b") (x "c") s)
        (.absent (.sum [int, .optional bool s] s) s)
        (.binary .coalesce
          (.binary .subtract (x "a") (.binary .subtract (x "b") (.float 1.5 s) s) s)
          (.subscript (.member (.emptyArray int s) "n" true s) (.int 2 s) s) s) s] s) s] s

/-- The only float of `nestedTree`, written out. -/
def nestedText : Float → String := fun _ => "1.5"

theorem printable_nestedTree : nestedTree.Printable nestedText := by
  have hfloat : Number.readFloat? (nestedText 1.5) = some 1.5 := rfl
  unfold nestedTree
  repeat' first
    | decide
    | exact hfloat
    | rw [List.forall_mem_cons]
    | exact List.forall_mem_nil _
    | rintro _ ⟨⟩
    | constructor

theorem parse_print_nestedTree :
    nestedTree.Printable nestedText ∧
      ∃ b, parse ((Stmt.prints nestedText nestedTree.body).map Terminal.token) "" = .ok b ∧
        b.unplaced = nestedTree.unplaced :=
  ⟨printable_nestedTree, parse_print printable_nestedTree (terminals_map_token _) ""⟩

end Quill
