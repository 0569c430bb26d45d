import Quill.Proofs.Reading

/-!
# Only what the grammar writes is accepted

A program that is parsed is written, piece by piece, with the tokens that it is parsed from: no token
is lost, none is read twice, and none is taken for something else. What the tree does not account for
is what the grammar leaves open: parentheses, commas behind the last item of a list and behind
fields, and how the ends of sums are written.

Results:
* `reading_stmt`: statements, by induction on the budget.
* `Reads.spells`: pieces that are read to the end are written with all the tokens.
* **`parse_writes`**: the tokens of a program write it.
-/

namespace Quill

open Syntax

/-! ## The words that announce a statement -/

/-- The words that announce a statement of the form. -/
def StmtForm.words : StmtForm → List Keyword
  | .declare => [.constWord, .letWord]
  | .struct => [.structWord]
  | .function => [.fnWord]
  | .breakLoop => [.breakWord]
  | .giveBack => [.returnWord]
  | .branch => [.ifWord]
  | .whileLoop => [.whileWord]
  | .repeatLoop => [.repeatWord]
  | .forLoop => [.forWord]

theorem exists_word_of_standardStmt {kind : TokenKind} {form : StmtForm}
    (h : Grammar.standardStmt kind = some form) : ∃ k ∈ form.words, kind = .word k := by
  cases kind with
  | word k => cases k <;> cases h <;> exact ⟨_, by simp [StmtForm.words], rfl⟩
  | _ => cases h

/-- Where only one word announces the form, it is the current one. -/
theorem Cursor.terminal?_of_standardStmt {c : Cursor} {form : StmtForm} {k : Keyword}
    (h : Grammar.standardStmt c.kind = some form) (hform : form.words = [k]) :
    c.current.terminal? = some (.word k) := by
  obtain ⟨k', hk', hkind⟩ := exists_word_of_standardStmt h
  rw [hform, List.mem_singleton] at hk'
  subst hk'
  exact Token.terminal?_word hkind

namespace Parse

open Quill.Parser

/-! ## Statements -/

section

variable {expr : Parser Expr} {type : Parser TypeExpr} {block : Parser Block}
  (hexpr : ∀ c, Reading c expr fun e w _ => ExprWrites .weakest e w)
  (htype : ∀ c, Reading c type fun t w _ => TypeWrites t w)
  (hblock : ∀ c, Reading c block fun b w _ => BlockWrites b w)

theorem reading_bindingMark (c : Cursor) : Reading c bindingMark fun byReference w _ =>
    w = [.mark (if byReference then .leftArrow else .assign)] := by
  refine .peekKind (.ite (fun h => ?_) fun _ => .unexpectedHere _)
  simp only [Bool.or_eq_true, decide_eq_true_eq] at h
  rcases h with h | h
  · refine .advance (Token.terminal?_mark h) (.pure ?_)
    rw [h]
    rfl
  · refine .advance (Token.terminal?_mark h) (.pure ?_)
    rw [h]
    rfl

include hexpr in
theorem reading_declare {c : Cursor} (h : Grammar.standardStmt c.kind = some .declare) :
    Reading c (declare expr) fun s w _ => StmtWrites s w := by
  obtain ⟨k, hk, hkind⟩ := exists_word_of_standardStmt h
  refine .advance (Token.terminal?_word hkind) (.expectOr fun x c₁ => ?_)
  refine .bind (reading_bindingMark c₁) fun byReference w c₂ hw => .bind (hexpr c₂) fun e u c₃ he => ?_
  refine .mark fun _ c₄ => .spanFrom fun s => .pure ?_
  subst hw
  rw [show c.current.kind = .word k from hkind]
  simp only [StmtForm.words, List.mem_cons, List.not_mem_nil, or_false] at hk
  rcases hk with rfl | rfl
  · exact .declare he
  · exact .declare he

include htype in
theorem reading_binding (c : Cursor) : Reading c (binding type) fun b w _ => BindingWrites b w := by
  refine .name fun x c₁ => .mark fun _ c₂ => .bind (htype c₂) fun t w c₃ ht => .spanFrom fun s => ?_
  refine .pure ?_
  rw [List.append_nil]
  exact .mk ht

include htype in
theorem reading_struct (n : Nat) {c : Cursor} (h : Grammar.standardStmt c.kind = some .struct) :
    Reading c (struct type n) fun s w _ => StmtWrites s w := by
  refine .advance (c.terminal?_of_standardStmt h rfl) (.name fun x c₁ => .mark fun _ c₂ => ?_)
  refine .bind (reading_commaOptional (reading_binding htype) _ n c₂) fun fields w c₃ hfields => ?_
  exact .mark fun _ c₄ => .spanFrom fun s => .pure (.struct hfields)

include htype in
theorem reading_resultType (c : Cursor) :
    Reading c (resultType type) fun t w _ => ResultWrites t w :=
  .acceptMark (fun c' => .bind_pure (htype c') fun _ _ _ ht => .some ht) fun _ => .pure .none

include htype hblock in
theorem reading_function (n : Nat) {c : Cursor} (h : Grammar.standardStmt c.kind = some .function) :
    Reading c (function type block n) fun s w _ => StmtWrites s w := by
  refine .advance (c.terminal?_of_standardStmt h rfl) (.name fun x c₁ => .mark fun _ c₂ => ?_)
  refine .bind (reading_commaClosed (reading_binding htype) _ n c₂) fun params w c₃ hparams => ?_
  refine .mark fun _ c₄ => .bind (reading_resultType htype c₄) fun result u c₅ hresult => ?_
  refine .bind (hblock c₅) fun body v c₆ hbody => .spanFrom fun s => .pure ?_
  rw [List.append_nil]
  exact .function hparams hresult hbody

theorem reading_breakLoop {c : Cursor} (h : Grammar.standardStmt c.kind = some .breakLoop) :
    Reading c breakLoop fun s w _ => StmtWrites s w :=
  .advance (c.terminal?_of_standardStmt h rfl) (.mark fun _ _ => .spanFrom fun _ => .pure .breakLoop)

include hexpr in
theorem reading_giveBack {c : Cursor} (h : Grammar.standardStmt c.kind = some .giveBack) :
    Reading c (giveBack expr) fun s w _ => StmtWrites s w := by
  have hvalue : ∀ c, Reading c (resultValue expr) fun value w _ =>
      (value = none ∧ w = []) ∨ ∃ e, value = some e ∧ ExprWrites .weakest e w := fun c =>
    .peekKind (.ite (fun _ => .pure (.inl ⟨rfl, rfl⟩)) fun _ =>
      .bind_pure (hexpr c) fun e _ _ he => .inr ⟨e, rfl, he⟩)
  refine .advance (c.terminal?_of_standardStmt h rfl) (.bind (hvalue _) fun value w c₁ hw => ?_)
  refine .mark fun _ c₂ => .spanFrom fun s => .pure ?_
  rcases hw with ⟨rfl, rfl⟩ | ⟨e, rfl, he⟩
  · exact .leave
  · exact .giveBack he

include hexpr hblock in
theorem reading_alternative (n : Nat) : ∀ c, Reading c (alternative expr block n)
    fun a w _ => AlternativeWrites a w := by
  induction n with
  | zero => exact fun c => .throw _
  | succ n ih =>
    refine fun c => .acceptWord (fun c₁ => .peekKind (.ite (fun _ => ?_) fun _ => ?_)) fun _ => ?_
    · refine .word fun _ c₂ => .bind (hexpr c₂) fun test w c₃ htest => ?_
      refine .bind (hblock c₃) fun body u c₄ hbody => .bind (ih c₄) fun rest v c₅ hrest => ?_
      refine .spanFrom fun s => .pure ?_
      rw [List.append_nil]
      exact .elseIf htest hbody hrest
    · exact .bind_pure (hblock c₁) fun _ _ _ hbody => .otherwise hbody
    · exact .pure .nothing

include hexpr hblock in
theorem reading_branch (n : Nat) (c : Cursor) :
    Reading c (branch expr block n) fun s w _ => StmtWrites s w := by
  refine .word fun _ c₁ => .bind (hexpr c₁) fun test w c₂ htest => ?_
  refine .bind (hblock c₂) fun body u c₃ hbody => ?_
  refine .bind (reading_alternative hexpr hblock n c₃) fun rest v c₄ hrest => ?_
  refine .spanFrom fun s => .pure ?_
  rw [List.append_nil]
  exact .branch htest hbody hrest

include hexpr hblock in
theorem reading_whileLoop {c : Cursor} (h : Grammar.standardStmt c.kind = some .whileLoop) :
    Reading c (whileLoop expr block) fun s w _ => StmtWrites s w := by
  refine .advance (c.terminal?_of_standardStmt h rfl) (.bind (hexpr _) fun test w c₁ htest => ?_)
  refine .bind (hblock c₁) fun body u c₂ hbody => .spanFrom fun s => .pure ?_
  rw [List.append_nil]
  exact .whileLoop htest hbody

include hexpr hblock in
theorem reading_repeatLoop {c : Cursor} (h : Grammar.standardStmt c.kind = some .repeatLoop) :
    Reading c (repeatLoop expr block) fun s w _ => StmtWrites s w := by
  refine .advance (c.terminal?_of_standardStmt h rfl) (.bind (hexpr _) fun count w c₁ hcount => ?_)
  refine .bind (hblock c₁) fun body u c₂ hbody => .spanFrom fun s => .pure ?_
  rw [List.append_nil]
  exact .repeatLoop hcount hbody

theorem eq_mark_of_ofKind? {kind : TokenKind} {op : RangeOp} (h : RangeOp.ofKind? kind = some op) :
    kind = .mark op.mark := by
  unfold RangeOp.ofKind? at h
  split_ifs at h with hexclusive hinclusive
  · cases h
    exact hexclusive
  · cases h
    exact hinclusive

include hexpr hblock in
theorem reading_forLoop {c : Cursor} (h : Grammar.standardStmt c.kind = some .forLoop) :
    Reading c (forLoop expr block) fun s w _ => StmtWrites s w := by
  refine .advance (c.terminal?_of_standardStmt h rfl) (.expectOr fun x c₁ => .word fun _ c₂ => ?_)
  refine .bind (hexpr c₂) fun first w c₃ hfirst => .peekKind ?_
  split
  · rename_i op hop
    refine .advance (Token.terminal?_mark (eq_mark_of_ofKind? hop)) ?_
    refine .bind (hexpr _) fun high u c₄ hhigh => .bind (hblock c₄) fun body v c₅ hbody => ?_
    refine .spanFrom fun s => .pure ?_
    rw [List.append_nil]
    exact .rangeLoop hfirst hhigh hbody
  · refine .bind (hblock c₃) fun body u c₄ hbody => .spanFrom fun s => .pure ?_
    rw [List.append_nil]
    exact .eachLoop hfirst hbody

include hexpr in
theorem reading_plain (c : Cursor) : Reading c (plain expr) fun s w _ => StmtWrites s w := by
  refine .bind (hexpr c) fun target w c₁ htarget => .peekKind ?_
  split
  · rename_i hkind
    refine .advance (Token.terminal?_mark hkind) (.bind (hexpr _) fun value u c₂ hvalue => ?_)
    refine .mark fun _ c₃ => .spanFrom fun s => .pure ?_
    rw [show c₁.current.kind = .mark .assign from hkind]
    exact .assign htarget hvalue
  · rename_i hkind
    refine .advance (Token.terminal?_mark hkind) (.bind (hexpr _) fun value u c₂ hvalue => ?_)
    refine .mark fun _ c₃ => .spanFrom fun s => .pure ?_
    rw [show c₁.current.kind = .mark .leftArrow from hkind]
    exact .assign htarget hvalue
  · rename_i hkind
    refine .advance (Token.terminal?_mark hkind) (.mark fun _ c₂ => .spanFrom fun s => ?_)
    rw [if_pos (show c₁.current.kind = .mark .plusPlus from hkind)]
    exact .pure (.increment htarget)
  · rename_i hkind
    refine .advance (Token.terminal?_mark hkind) (.mark fun _ c₂ => .spanFrom fun s => ?_)
    rw [if_neg (by rw [show c₁.current.kind = .mark .minusMinus from hkind]; nofun)]
    exact .pure (.decrement htarget)
  · rename_i hkind
    refine .ite (fun hcall => ?_) fun _ => .unexpectedHere _
    exact .advance (Token.terminal?_mark hkind) (.spanFrom fun s => .pure (.perform htarget hcall))
  · exact .unexpected

end

/-- Statements between braces. -/
theorem reading_block {stmt : Parser Stmt} (hstmt : ∀ c, Reading c stmt fun s w _ => StmtWrites s w)
    (n : Nat) (c : Cursor) : Reading c (block stmt n) fun b w _ => BlockWrites b w := by
  have hbody : ∀ n c, Reading c (blockBody stmt n) fun ss w _ => Joined StmtWrites ss w := by
    intro n
    induction n with
    | zero => exact fun c => .throw _
    | succ n ih =>
      refine fun c => .peekKind (.ite (fun _ => .pure .nil) fun _ => .get (.ite (fun _ => ?_) ?_))
      · exact .bind (hstmt c) fun s w c₁ hs => .bind_pure (ih c₁) fun ss u _ hss => .cons hs hss
      · exact fun _ => .unexpectedHere _
  refine .mark fun _ c₁ => .bind (hbody n c₁) fun ss w c₂ hss => .mark fun _ c₃ => ?_
  exact .spanFrom fun s => .pure (.mk hss)

/-- **Statements are read as they are written.** -/
theorem reading_stmt (n : Nat) : ∀ c, Reading c (stmt .standard n) fun s w _ => StmtWrites s w := by
  induction n with
  | zero => exact fun c => .throw _
  | succ n ih =>
    intro c
    have hexpr : ∀ c, Reading c (expr .standard n .weakest) fun e w _ => ExprWrites .weakest e w :=
      reading_weakest (reading_expr n)
    have htype : ∀ c, Reading c (typeExpr .standard n .weakest) fun t w _ => TypeWrites t w :=
      fun c => (reading_typeExpr n c).imp fun _ _ _ h => h.1
    have hblock := reading_block ih n
    refine .peekKind ?_
    split
    · rename_i hform
      exact reading_declare hexpr hform
    · rename_i hform
      exact reading_struct htype n hform
    · rename_i hform
      exact reading_function htype hblock n hform
    · rename_i hform
      exact reading_breakLoop hform
    · rename_i hform
      exact reading_giveBack hexpr hform
    · exact reading_branch hexpr hblock n c
    · rename_i hform
      exact reading_whileLoop hexpr hblock hform
    · rename_i hform
      exact reading_repeatLoop hexpr hblock hform
    · rename_i hform
      exact reading_forLoop hexpr hblock hform
    · exact reading_plain hexpr c

end Parse

/-! ## Programs -/

/-- **Pieces that are read to the end are written with all the tokens.** -/
theorem Reads.spells {ts us : List Token} {w : List Piece} (h : Reads ts w us)
    (hend : terminals us = []) : Spells w (terminals ts) := by
  induction h with
  | nil =>
    rw [hend]
    exact .nil
  | terminal hx _ ih =>
    rw [terminals_cons hx]
    exact .terminal _ (ih hend)
  | sumEnd ht _ ih =>
    rw [terminals_cons (Token.terminal?_mark ht)]
    exact .sumEnd (ih hend)
  | halfShift ht hg _ ih =>
    -- the other half is the first terminal of what is left, so a piece stands for it
    have hrest := ih hend
    rw [terminals_cons (Token.terminal?_mark hg)] at hrest
    rw [terminals_cons (Token.terminal?_mark ht)]
    cases hrest with
    | terminal _ h => exact .sumEndGreater h
    | sumEnd h => exact .twoSumEnds h

theorem Parse.reading_program (n : Nat) (c : Cursor) :
    Parser.Reading c (program .standard n)
      fun b w c' => Joined StmtWrites b.body w ∧ c'.kind = .eof := by
  refine .get (.bind (Parser.reading_untilEnd (reading_stmt n) n c) fun ss w c' h => .get (.pure ?_))
  rwa [List.append_nil]

/-- **The tokens of a program write it.** They are what the pieces of a derivation are written with,
up to the first token that closes a text. -/
theorem parse_writes {tokens : List Token} {file : String} {b : Block}
    (h : parse tokens file = .ok b) :
    ∃ w, Joined StmtWrites b.body w ∧ Spells w (terminals tokens) := by
  unfold parse Cursor.run at h
  split at h
  · rename_i c' hrun
    cases h
    obtain ⟨w, hreads, hw, hend⟩ := Parse.reading_program _ _ _ _ hrun
    refine ⟨w, hw, ?_⟩
    rw [← terminals_close file]
    exact hreads.spells (Cursor.terminals_of_kind hend)
  · cases h

/-- `f(no <int>> 3,);`, where `>>` ends a sum and then compares. -/
def shiftTerminals : List Terminal :=
  [.name "f", .mark .openParen, .word .noWord, .mark .less, .name "int", .mark .shiftRight,
   .integer "3", .mark .comma, .mark .closeParen, .mark .semicolon]

/-- The tokens of `shiftTerminals`, without places. -/
def shiftTokens : List Token := shiftTerminals.map Terminal.token

/-- The tree of `shiftTokens`. The sum ends one column further on, in the middle of `>>`. -/
def shiftTree : Block :=
  let s : Span := .nowhere
  let half : Span := ⟨.nowhere, Position.nowhere.succ⟩
  .mk [.perform (.call (.symbol "f" s)
    [.binary .greater (.absent (.sum [.named "int" s] half) half) (.int 3 s) s] s) s] s

theorem parse_writes_shift :
    parse shiftTokens "" = .ok shiftTree ∧
      ∃ w, Joined StmtWrites shiftTree.body w ∧ Spells w shiftTerminals := by
  have h : parse shiftTokens "" = .ok shiftTree := by cbv
  exact ⟨h, parse_writes h⟩

end Quill
