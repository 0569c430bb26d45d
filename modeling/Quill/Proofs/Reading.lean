import Quill.Parse.Program
import Quill.Proofs.Phrase

/-!
# Parsers read what the grammar writes

`Reads ts w us` says that the pieces `w` are read off the tokens `ts`, and `us` are left; a `>>` that
ends a sum leaves a `>`. `Reading c p Q` says that what the parser `p` gives at the cursor `c`, the
pieces it reads there and the cursor it leaves have the property `Q`. The rules for `Reading` follow
the way parsers are put together.

An expression is read at a power, and has to be tighter than that. An operator at its start may be
looser, since nothing stands before it. The reading stops before a token that does not continue the
expression at this power. So an operator finds a left operand that is as tight as it asks: otherwise
the operator of the operand would have gone on with it.

Results:
* `Reading.bind` and its like: the rules.
* `reading_typeExpr`, `reading_expr`: annotations and expressions, by induction on the budget.
-/

namespace Quill

open Syntax

/-! ## Reading pieces off tokens -/

/-- The pieces are read off the tokens, and the other tokens are left. -/
inductive Reads : List Token → List Piece → List Token → Prop
  | nil {ts : List Token} : Reads ts [] ts
  | terminal {t : Token} {x : Terminal} {ts us : List Token} {w : List Piece}
      (hx : t.terminal? = some x) (h : Reads ts w us) : Reads (t :: ts) (.terminal x :: w) us
  | sumEnd {t : Token} {ts us : List Token} {w : List Piece} (ht : t.kind = .mark .greater)
      (h : Reads ts w us) : Reads (t :: ts) (.sumEnd :: w) us
  | halfShift {t g : Token} {ts us : List Token} {w : List Piece} (ht : t.kind = .mark .shiftRight)
      (hg : g.kind = .mark .greater) (h : Reads (g :: ts) w us) : Reads (t :: ts) (.sumEnd :: w) us

theorem Reads.append {ts us vs : List Token} {w u : List Piece} (h : Reads ts w us)
    (h' : Reads us u vs) : Reads ts (w ++ u) vs := by
  induction h with
  | nil => exact h'
  | terminal hx _ ih => exact .terminal hx (ih h')
  | sumEnd ht _ ih => exact .sumEnd ht (ih h')
  | halfShift ht hg _ ih => exact .halfShift ht hg (ih h')

/-- What is behind the current token, if that does not close the list. -/
theorem Cursor.rest_eq_cons {c : Cursor} (h : c.kind ≠ .eof) :
    c.rest = c.current :: c.advance.rest := by
  cases hrest : c.rest with
  | nil => simp [kind, current, hrest, EndToken.token] at h
  | cons t ts => simp [current, advance, hrest]

/-- A current `>>` is cut into two `>`; any other token stays. -/
theorem Cursor.splitShift_cases (c : Cursor) : c.splitShift = c ∨
    ∃ t g₁ g₂ ts, c.rest = t :: ts ∧ t.kind = .mark .shiftRight ∧
      c.splitShift.rest = g₁ :: g₂ :: ts ∧ g₂.kind = .mark .greater := by
  unfold splitShift
  split
  · rename_i hrest
    exact .inr ⟨_, _, _, _, hrest, rfl, rfl, rfl⟩
  · exact .inl rfl

theorem Cursor.terminals_of_kind {c : Cursor} (h : c.kind = .eof) : terminals c.rest = [] := by
  cases hrest : c.rest with
  | nil => rfl
  | cons t ts => exact terminals_cons_eof (by simpa [kind, current, hrest] using h) ts

/-- What closes a list adds no terminal, and takes none away. -/
theorem terminals_close (file : String) : ∀ tokens : List Token,
    terminals (Cursor.close file tokens).1 = terminals tokens
  | [] => rfl
  | [t] => by
    unfold Cursor.close
    split_ifs with ht
    · rw [terminals_cons_eof ht]
      rfl
    · rfl
  | t :: u :: ts => by
    have ih := terminals_close file (u :: ts)
    change terminals (t :: (Cursor.close file (u :: ts)).1) = _
    cases ht : t.terminal? with
    | some x => rw [terminals_cons ht, terminals_cons ht, ih]
    | none =>
      have hkind := Token.kind_of_terminal?_none ht
      rw [terminals_cons_eof hkind, terminals_cons_eof hkind]

/-! ## Rules -/

namespace Parser

variable {α β : Type} {c : Cursor} {p : Parser α} {f : α → Parser β}

theorem bind_ok {b : β} {c'' : Cursor} :
    (p >>= f) c = .ok b c'' ↔ ∃ a c', p c = .ok a c' ∧ f a c' = .ok b c'' := by
  change EStateM.bind p f c = .ok b c'' ↔ _
  unfold EStateM.bind
  cases hp : p c with
  | ok a c' => simp
  | error e c' => simp

/-- What the parser gives at the cursor, the pieces it reads and the cursor it leaves have the
property. -/
def Reading (c : Cursor) (p : Parser α) (Q : α → List Piece → Cursor → Prop) : Prop :=
  ∀ a c', p c = .ok a c' → ∃ w, Reads c.rest w c'.rest ∧ Q a w c'

namespace Reading

variable {P Q : α → List Piece → Cursor → Prop} {R : β → List Piece → Cursor → Prop}

theorem pure {a : α} (h : Q a [] c) : Reading c (Pure.pure a) Q := by
  intro b c' hb
  cases hb
  exact ⟨[], .nil, h⟩

theorem throw (e : Failure) : Reading c (MonadExcept.throw e : Parser α) Q := by
  intro a c' ha
  cases ha

theorem imp (h : Reading c p P) (hPQ : ∀ a w c', P a w c' → Q a w c') : Reading c p Q := by
  intro a c' ha
  obtain ⟨w, hw, hP⟩ := h a c' ha
  exact ⟨w, hw, hPQ a w c' hP⟩

/-- A parser and what follows it: the pieces of the one stand before those of the other. -/
theorem bind (hp : Reading c p P)
    (hf : ∀ a w c', P a w c' → Reading c' (f a) fun b u c'' => R b (w ++ u) c'') :
    Reading c (p >>= f) R := by
  intro b c'' hb
  obtain ⟨a, c', ha, hb⟩ := bind_ok.mp hb
  obtain ⟨w, hw, hP⟩ := hp a c' ha
  obtain ⟨u, hu, hR⟩ := hf a w c' hP b c'' hb
  exact ⟨w ++ u, hw.append hu, hR⟩

/-- A parser whose result is only given another form. -/
theorem bind_pure {g : α → β} (hp : Reading c p P) (hg : ∀ a w c', P a w c' → R (g a) w c') :
    Reading c (p >>= fun a => Pure.pure (g a)) R := by
  refine hp.bind fun a w c' hP => .pure ?_
  rw [List.append_nil]
  exact hg a w c' hP

theorem ite {b : Prop} [Decidable b] {q : Parser α} (hp : b → Reading c p Q)
    (hq : ¬ b → Reading c q Q) : Reading c (if b then p else q) Q := by
  split_ifs with hb
  · exact hp hb
  · exact hq hb

/-! What moves the cursor not at all. -/

theorem get {f : Cursor → Parser β} (h : Reading c (f c) R) :
    Reading c (MonadState.get >>= f) R := h

theorem peekKind {f : TokenKind → Parser β} (h : Reading c (f c.kind) R) :
    Reading c (Parser.peekKind >>= f) R := h

theorem peek {f : Token → Parser β} (h : Reading c (f c.current) R) :
    Reading c (Parser.peek >>= f) R := h

theorem spanFrom {f : Span → Parser β} {start : Position}
    (h : ∀ s, Reading c (f s) R) : Reading c (Parser.spanFrom start >>= f) R := h _

theorem unexpected : Reading c (Parser.unexpected : Parser α) Q := throw _

theorem unexpectedHere (message : String) : Reading c (Parser.unexpectedHere message : Parser α) Q :=
  throw _

/-! What passes a token. -/

theorem advance {f : Token → Parser β} {x : Terminal} (hx : c.current.terminal? = some x)
    (h : Reading c.advance (f c.current) fun b u c' => R b (.terminal x :: u) c') :
    Reading c (Parser.advance >>= f) R := by
  intro b c' hb
  obtain ⟨u, hu, hR⟩ := h b c' hb
  refine ⟨.terminal x :: u, ?_, hR⟩
  rw [Cursor.rest_eq_cons (Token.kind_ne_eof hx)]
  exact .terminal hx hu

theorem expect {f : Token → Parser β} {kind : TokenKind} {x : Token → Terminal}
    (hx : ∀ t : Token, t.kind = kind → t.terminal? = some (x t))
    (h : ∀ t c', Reading c' (f t) fun b u c'' => R b (.terminal (x t) :: u) c'') :
    Reading c (Parser.expect kind >>= f) R := by
  intro b c'' hb
  obtain ⟨t, c', ht, hb⟩ := bind_ok.mp hb
  obtain ⟨_, _, ⟨⟩, ht⟩ := bind_ok.mp ht
  split_ifs at ht with hkind
  · cases ht
    obtain ⟨u, hu, hR⟩ := h c.current c.advance b c'' hb
    refine ⟨.terminal (x c.current) :: u, ?_, hR⟩
    have hcurrent := hx c.current hkind
    rw [Cursor.rest_eq_cons (Token.kind_ne_eof hcurrent)]
    exact .terminal hcurrent hu
  · cases ht

theorem expectOr {f : Token → Parser β} {message : String}
    (h : ∀ t c', Reading c' (f t) fun b u c'' => R b (.name t.value :: u) c'') :
    Reading c (Parser.expectOr .identifier message >>= f) R := by
  intro b c'' hb
  obtain ⟨t, c', ht, hb⟩ := bind_ok.mp hb
  refine expect (x := fun t => .name t.value) (fun t => Token.terminal?_name) h b c'' ?_
  refine bind_ok.mpr ⟨t, c', ?_, hb⟩
  obtain ⟨_, _, ⟨⟩, ht⟩ := bind_ok.mp ht
  split_ifs at ht with hkind
  · exact bind_ok.mpr ⟨_, _, rfl, by rw [if_pos hkind]; exact ht⟩
  · cases ht

theorem mark {f : Token → Parser β} {m : Mark}
    (h : ∀ t c', Reading c' (f t) fun b u c'' => R b (.mark m :: u) c'') :
    Reading c (Parser.expect (.mark m) >>= f) R :=
  expect (x := fun _ => .mark m) (fun _ => Token.terminal?_mark) h

theorem word {f : Token → Parser β} {k : Keyword}
    (h : ∀ t c', Reading c' (f t) fun b u c'' => R b (.word k :: u) c'') :
    Reading c (Parser.expect (.word k) >>= f) R :=
  expect (x := fun _ => .word k) (fun _ => Token.terminal?_word) h

theorem name {f : Token → Parser β}
    (h : ∀ t c', Reading c' (f t) fun b u c'' => R b (.name t.value :: u) c'') :
    Reading c (Parser.expect .identifier >>= f) R :=
  expect (x := fun t => .name t.value) (fun _ => Token.terminal?_name) h

theorem accept {f : Bool → Parser β} {kind : TokenKind} {x : Terminal}
    (hx : ∀ t : Token, t.kind = kind → t.terminal? = some x)
    (hyes : ∀ c', Reading c' (f true) fun b u c'' => R b (.terminal x :: u) c'')
    (hno : c.kind ≠ kind → Reading c (f false) R) : Reading c (Parser.accept kind >>= f) R := by
  intro b c'' hb
  obtain ⟨t, c', ht, hb⟩ := bind_ok.mp hb
  obtain ⟨_, _, ⟨⟩, ht⟩ := bind_ok.mp ht
  split_ifs at ht with hkind
  · cases ht
    exact advance (f := fun _ => f true) (hx c.current hkind) (hyes _) b c'' hb
  · cases ht
    exact hno hkind b c'' hb

theorem acceptMark {f : Bool → Parser β} {m : Mark}
    (hyes : ∀ c', Reading c' (f true) fun b u c'' => R b (.mark m :: u) c'')
    (hno : c.kind ≠ .mark m → Reading c (f false) R) : Reading c (Parser.accept (.mark m) >>= f) R :=
  accept (fun _ => Token.terminal?_mark) hyes hno

theorem acceptWord {f : Bool → Parser β} {k : Keyword}
    (hyes : ∀ c', Reading c' (f true) fun b u c'' => R b (.word k :: u) c'')
    (hno : c.kind ≠ .word k → Reading c (f false) R) : Reading c (Parser.accept (.word k) >>= f) R :=
  accept (fun _ => Token.terminal?_word) hyes hno

/-- The end of a sum, which may be half of a `>>`. -/
theorem sumEnd {f : Token → Parser β}
    (h : ∀ t c', Reading c' (f t) fun b u c'' => R b (.sumEnd :: u) c'') :
    Reading c (Parser.splitShift >>= fun _ => Parser.expect (.mark .greater) >>= f) R := by
  intro b c'' hb
  obtain ⟨_, _, ⟨⟩, hb⟩ := bind_ok.mp hb
  obtain ⟨t, c', ht, hb⟩ := bind_ok.mp hb
  obtain ⟨_, _, ⟨⟩, ht⟩ := bind_ok.mp ht
  split_ifs at ht with hkind
  · cases ht
    obtain ⟨u, hu, hR⟩ := h _ _ b c'' hb
    refine ⟨.sumEnd :: u, ?_, hR⟩
    have hrest := Cursor.rest_eq_cons (c := c.splitShift) (by rw [hkind]; nofun)
    rcases c.splitShift_cases with heq | ⟨t, g₁, g₂, ts, hc, ht, hsplit, hg₂⟩
    · rw [heq] at hrest hkind hu
      rw [hrest]
      exact .sumEnd hkind hu
    · rw [hsplit] at hrest
      rw [hc]
      exact .halfShift ht hg₂ ((List.cons.inj hrest).2 ▸ hu)
  · cases ht

end Reading

/-! ## Lists -/

section

variable {item : Parser α} {W : α → List Piece → Prop}
  (hitem : ∀ c, Reading c item fun a w _ => W a w)

include hitem

theorem reading_commaSeparated (n : Nat) : ∀ c, Reading c (commaSeparated item n)
    fun as w _ => Separated W as w := by
  induction n with
  | zero => exact fun c => .throw _
  | succ n ih =>
    intro c
    refine .bind (hitem c) fun a w c' ha => .acceptMark (fun c'' => ?_) fun _ => .pure ?_
    · exact .bind_pure (ih c'') fun as u _ has => .more ha has
    · rw [List.append_nil]
      exact .last ha

/-- Items up to a closing token: with a comma behind each, or behind each but the last. -/
theorem reading_commaClosed (close : TokenKind) (n : Nat) : ∀ c,
    Reading c (commaClosed close item n) fun as w _ => Closed W as w := by
  induction n with
  | zero => exact fun c => .throw _
  | succ n ih =>
    refine fun c => .peekKind (.ite (fun _ => .pure .none) fun _ => ?_)
    refine .bind (hitem c) fun a w c' ha => .acceptMark (fun c'' => ?_) fun _ => .pure ?_
    · refine .bind_pure (ih c'') fun as u _ has => ?_
      cases has with
      | none => exact .trailing (.last ha)
      | plain has => exact .plain (.more ha has)
      | @trailing _ u has =>
        have hcomma := Closed.trailing (Separated.more ha has)
        rwa [List.append_assoc] at hcomma
    · rw [List.append_nil]
      exact .plain (.last ha)

theorem reading_commaOptional (close : TokenKind) (n : Nat) : ∀ c,
    Reading c (commaOptional close item n) fun as w _ => Joined (WithComma W) as w := by
  induction n with
  | zero => exact fun c => .throw _
  | succ n ih =>
    refine fun c => .peekKind (.ite (fun _ => .pure .nil) fun _ => ?_)
    refine .bind (hitem c) fun a w c' ha => .acceptMark (fun c'' => ?_) fun _ => ?_
    · refine .bind_pure (ih c'') fun as u _ has => ?_
      have hjoined := Joined.cons (WithComma.comma ha) has
      rwa [List.append_assoc] at hjoined
    · exact .bind_pure (ih c') fun as u _ has => .cons (.plain ha) has

theorem reading_untilEnd (n : Nat) : ∀ c, Reading c (untilEnd item n)
    fun as w c' => Joined W as w ∧ c'.kind = .eof := by
  induction n with
  | zero => exact fun c => .throw _
  | succ n ih =>
    refine fun c => .get (.ite (fun _ => ?_) fun hend => .pure ⟨.nil, ?_⟩)
    · refine .bind (hitem c) fun a w c' ha => .bind_pure (ih c') fun as u c'' has => ?_
      exact ⟨.cons ha has.1, has.2⟩
    · simpa [Cursor.hasTokens] using hend

end

end Parser

/-! ## Type annotations -/

namespace Parse

open Quill.Parser

/-- The pieces write the annotation, and no `?` follows. -/
def ReadsType (t : TypeExpr) (w : List Piece) (c : Cursor) : Prop :=
  TypeWrites t w ∧ c.kind ≠ .mark .question

section

variable {type : Parser TypeExpr} (htype : ∀ c, Reading c type ReadsType)

include htype

/-- The start of an annotation. Behind a function, no `?` follows. -/
theorem reading_typeHead (n : Nat) (c : Cursor) : Reading c (typeHead .standard type n)
    fun t w c' => TypeWrites t w ∧ (t.isFunction = true → c'.kind ≠ .mark .question) := by
  have hwrites : ∀ c, Reading c type fun t w _ => TypeWrites t w := fun c =>
    (htype c).imp fun _ _ _ h => h.1
  refine .peekKind ?_
  split
  · exact .unexpectedHere _
  · exact .name fun t c' => .pure ⟨.named, nofun⟩
  · refine .mark fun _ c₁ => .bind (hwrites c₁) fun t w c₂ ht => .mark fun _ c₃ => .spanFrom fun s => ?_
    exact .pure ⟨.array ht, nofun⟩
  · refine .mark fun _ c₁ => .bind (reading_commaSeparated hwrites n c₁) fun ts w c₂ hts => ?_
    exact .sumEnd fun _ c₃ => .spanFrom fun s => .pure ⟨.sum hts, nofun⟩
  · refine .mark fun _ c₁ => .bind (reading_commaClosed hwrites _ n c₁) fun ps w c₂ hps => ?_
    refine .mark fun _ c₃ => .mark fun _ c₄ => .bind (htype c₄) fun r u c₅ hr => .spanFrom fun s => ?_
    refine .pure ⟨?_, fun _ => hr.2⟩
    rw [List.append_nil]
    exact .function hps hr.1

end

/-- The marks of interrogation behind an annotation are all taken. -/
theorem reading_typeTail (n : Nat) : ∀ (c : Cursor) (left : TypeExpr) (w : List Piece),
    TypeWrites left w → (left.isFunction = true → c.kind ≠ .mark .question) →
    Reading c (typeTail .standard .weakest n left) fun t u c' => ReadsType t (w ++ u) c' := by
  induction n with
  | zero => exact fun c left w _ _ => .throw _
  | succ n ih =>
    intro c left w hleft hfunction
    refine .peekKind ?_
    split
    · rename_i hnone
      refine .pure ⟨by rwa [List.append_nil], fun hkind => ?_⟩
      rw [hkind] at hnone
      cases hnone
    · rename_i p hsome
      obtain ⟨hkind, rfl⟩ := typeFollow_eq hsome
      rw [if_neg (by decide)]
      refine .bind (P := fun t u _ => ∃ span, t = .optional left span ∧ u = [.mark .question]) ?_ ?_
      · exact .mark fun _ c' => .spanFrom fun s => .pure ⟨_, rfl, rfl⟩
      · rintro _ _ c' ⟨span, rfl, rfl⟩
        have hbase : left.isFunction = false :=
          Bool.eq_false_of_not_eq_true fun h => hfunction h hkind
        refine (ih c' _ _ (hleft.optional hbase) nofun).imp fun t u c'' ht => ?_
        rwa [List.append_assoc] at ht

/-- **Annotations are read as they are written**, and to their end. -/
theorem reading_typeExpr (n : Nat) : ∀ c, Reading c (typeExpr .standard n .weakest) ReadsType := by
  induction n with
  | zero => exact fun c => .throw _
  | succ n ih =>
    intro c
    refine .bind (reading_typeHead ih n c) fun t w c' ht => ?_
    exact reading_typeTail n c' t w ht.1 ht.2

/-! ## Expressions -/

/-- The token at the cursor does not continue an expression that is read at the power. -/
def StopsAt (p : Power) (c : Cursor) : Prop :=
  ∀ q form, Grammar.standardExprFollow c.kind = some (q, form) → q ≤ p

/-- The pieces write the expression more tightly than the power, or as tightly as all that has
nothing on its left; and what follows does not continue it. -/
def ReadsExpr (p : Power) (e : Expr) (w : List Piece) (c : Cursor) : Prop :=
  (∃ q, (p < q ∨ .unary ≤ q) ∧ ExprWrites q e w) ∧ StopsAt p c

theorem ReadsExpr.weakest {p : Power} {e : Expr} {w : List Piece} {c : Cursor}
    (h : ReadsExpr p e w c) : ExprWrites .weakest e w := by
  obtain ⟨⟨q, -, hw⟩, -⟩ := h
  exact hw.weaker q.weakest_le

theorem stopsAt_primary (c : Cursor) : StopsAt .primary c := fun q _ _ => q.le_primary

theorem stopsAt_call (c : Cursor) : StopsAt .call c := fun _ _ => exprFollow_le_call

/-- What is read at the power of a right operand may be one. -/
theorem takesRight_of_reads {p q : Power} (hp : p < .unary) (h : p.right < q ∨ .unary ≤ q) :
    p.TakesRight q := by
  rcases h with h | h
  · exact Power.takesRight_iff.mpr h
  · exact Power.takesRight_of_lt (Power.lt_of_lt_of_le hp h)

section

variable {expr : Power → Parser Expr} {type : Parser TypeExpr}
  (hexpr : ∀ p c, Reading c (expr p) (ReadsExpr p)) (htype : ∀ c, Reading c type ReadsType)

/-- Literals and names. -/
theorem reading_primary (c : Cursor) :
    Reading c primary fun e w _ => ExprWrites .primary e w := by
  refine .peek ?_
  split
  · rename_i hkind
    split
    · rename_i hvalue
      exact .advance (by simp [Token.terminal?, hkind]) (.pure (.int hvalue))
    · exact .throw _
  · rename_i hkind
    split
    · rename_i hvalue
      exact .advance (by simp [Token.terminal?, hkind]) (.pure (.float hvalue))
    · exact .throw _
  · rename_i hkind
    exact .advance (by simp [Token.terminal?, hkind]) (.pure .string)
  · rename_i hkind
    exact .advance (Token.terminal?_word hkind) (.pure (.bool (b := true)))
  · rename_i hkind
    exact .advance (Token.terminal?_word hkind) (.pure (.bool (b := false)))
  · rename_i hkind
    exact .advance (Token.terminal?_name hkind) (.pure .symbol)
  · exact .unexpected

include hexpr

theorem reading_weakest (c : Cursor) :
    Reading c (expr .weakest) fun e w _ => ExprWrites .weakest e w :=
  (hexpr .weakest c).imp fun _ _ _ => ReadsExpr.weakest

/-- An operator and its operand. -/
theorem reading_unary {c : Cursor} (h : Grammar.standardExprStart c.kind = some .unary) :
    Reading c (unary expr) fun e w c' => ExprWrites .unary e w ∧ StopsAt .unary c' := by
  obtain ⟨op, hop⟩ := exprStart_unary h
  have hterminal : c.current.terminal? = some op.terminal := by
    have hkind : c.current.kind = op.kind := hop
    cases op <;> simp [Token.terminal?, hkind, UnaryOp.kind, UnaryOp.terminal]
  refine .advance hterminal ?_
  rw [show c.current.kind = op.kind from hop, op.ofKind?_kind]
  refine .bind_pure (hexpr .unary _) fun e w c' he => ?_
  obtain ⟨⟨q, hq, hw⟩, hstop⟩ := he
  exact ⟨.unary (hw.weaker (hq.elim Power.le_of_lt id)), hstop⟩

include htype

/-- The start of an expression. -/
theorem reading_exprHead (n : Nat) (c : Cursor) : Reading c (exprHead .standard expr type n)
    fun e w c' => ∃ q, .unary ≤ q ∧ ExprWrites q e w ∧ StopsAt q.right c' := by
  have hprimary : ∀ {e : Expr} {w : List Piece} {c' : Cursor}, ExprWrites .primary e w →
      ∃ q, .unary ≤ q ∧ ExprWrites q e w ∧ StopsAt q.right c' := fun h =>
    ⟨.primary, by decide, h, stopsAt_primary _⟩
  have hweakest := reading_weakest hexpr
  refine .peekKind ?_
  split
  · exact .unexpected
  · exact (reading_primary c).imp fun _ _ _ => hprimary
  · rename_i hstart
    exact (reading_unary hexpr hstart).imp fun _ _ _ h => ⟨.unary, by decide, h⟩
  · refine .mark fun _ c₁ => .bind (hweakest c₁) fun e w c₂ he => .mark fun _ c₃ => .pure ?_
    exact hprimary (.group he)
  · refine .mark fun _ c₁ => .acceptMark (fun c₂ => ?_) fun _ => ?_
    · refine .bind (htype c₂) fun t w c₃ ht => .spanFrom fun s => .pure ?_
      rw [List.append_nil]
      exact hprimary (.emptyArray ht.1)
    · refine .bind (reading_commaSeparated hweakest n c₁) fun es w c₂ hes => .mark fun _ c₃ => ?_
      exact .spanFrom fun s => .pure (hprimary (.array hes))
  · refine .word fun _ c₁ => .bind (htype c₁) fun t w c₂ ht => .spanFrom fun s => .pure ?_
    rw [List.append_nil]
    exact hprimary (.absent ht.1)

omit htype

/-- **One continuation of an expression.** What it continues is tight enough: otherwise it would have
been taken into it. -/
theorem reading_continuation (n : Nat) {c : Cursor} {left : Expr} {p q : Power} {w : List Piece}
    {form : ExprFollow} (hleft : ExprWrites p left w) (hstop : StopsAt p.right c)
    (hfollow : Grammar.standardExprFollow c.kind = some (q, form)) :
    Reading c (continuation expr n left q form)
      fun e u c' => ExprWrites q e (w ++ u) ∧ StopsAt q.right c' := by
  have htakes : q.TakesLeft p := Power.takesLeft_iff.mpr (hstop q form hfollow)
  have hweakest := reading_weakest hexpr
  rcases exprFollow_cases hfollow with ⟨op, hkind, rfl, rfl⟩ | ⟨hkind, rfl, rfl⟩ |
    ⟨hkind, rfl, rfl⟩ | ⟨hkind, rfl, rfl⟩ | ⟨hkind, rfl, rfl⟩
  · refine .advance (Token.terminal?_mark hkind) ?_
    have hpower : (if op.groupsRight then op.tightness.lower else op.tightness) =
        op.tightness.right := by rw [← op.groupsRight_tightness]; rfl
    rw [show c.current.kind = .mark op.mark from hkind, op.ofKind?_mark]
    simp only [hpower]
    refine .bind_pure (hexpr _ _) fun e u c' ⟨⟨r, hr, hu⟩, hstop'⟩ => ⟨?_, hstop'⟩
    exact .binary hleft htakes hu (takesRight_of_reads op.tightness_lt_unary hr)
  · refine .mark fun _ c₁ => .bind (hweakest c₁) fun yes u c₂ hyes => .mark fun _ c₃ => ?_
    refine .bind_pure (hexpr _ c₃) fun no v c' ⟨⟨r, hr, hv⟩, hstop'⟩ => ⟨?_, hstop'⟩
    exact .conditional hleft htakes hyes hv (takesRight_of_reads (by decide) hr)
  · refine .mark fun _ c₁ => .bind (reading_commaClosed hweakest _ n c₁) fun args u c₂ hargs => ?_
    refine .mark fun _ c₃ => .spanFrom fun s => .pure ⟨?_, stopsAt_call _⟩
    exact .call (hleft.weaker htakes.le) hargs
  · refine .mark fun _ c₁ => .bind (hweakest c₁) fun index u c₂ hindex => .mark fun _ c₃ => ?_
    exact .spanFrom fun s => .pure ⟨.subscript (hleft.weaker htakes.le) hindex, stopsAt_call _⟩
  · rcases hkind with hkind | hkind
    · refine .advance (Token.terminal?_mark hkind) (.expectOr fun t c' => .pure ⟨?_, stopsAt_call _⟩)
      rw [show c.current.kind = .mark .dot from hkind]
      exact .member (hleft.weaker htakes.le)
    · refine .advance (Token.terminal?_mark hkind) (.expectOr fun t c' => .pure ⟨?_, stopsAt_call _⟩)
      rw [show c.current.kind = .mark .questionDot from hkind]
      exact .member (hleft.weaker htakes.le)

/-- The continuations of an expression, as far as the power allows. -/
theorem reading_exprTail (p : Power) (n : Nat) : ∀ (c : Cursor) (left : Expr) (q : Power)
    (w : List Piece), ExprWrites q left w → p < q ∨ .unary ≤ q → StopsAt q.right c →
    Reading c (exprTail .standard expr p n left) fun e u c' => ReadsExpr p e (w ++ u) c' := by
  induction n with
  | zero => exact fun c left q w _ _ _ => .throw _
  | succ n ih =>
    intro c left q w hleft hq hstop
    refine .peekKind ?_
    split
    · rename_i hnone
      refine .pure ⟨⟨q, hq, by rwa [List.append_nil]⟩, fun r form hr => ?_⟩
      rw [show Grammar.standardExprFollow c.kind = none from hnone] at hr
      cases hr
    · rename_i r form hfollow
      refine .ite (fun hle => .pure ⟨⟨q, hq, by rwa [List.append_nil]⟩, fun r' form' hr => ?_⟩) ?_
      · rw [show Grammar.standardExprFollow c.kind = _ from hfollow] at hr
        cases hr
        exact hle
      · intro hlt
        refine .bind (reading_continuation hexpr n hleft hstop hfollow) fun e u c' ⟨he, hstop'⟩ => ?_
        refine (ih c' e r (w ++ u) he (.inl (Power.lt_iff_not_le.mpr hlt)) hstop').imp ?_
        intro e' v c'' he'
        rwa [List.append_assoc] at he'

end

/-- **Expressions are read as they are written**, and as far as the power allows. -/
theorem reading_expr (n : Nat) : ∀ p c, Reading c (expr .standard n p) (ReadsExpr p) := by
  induction n with
  | zero => exact fun p c => .throw _
  | succ n ih =>
    intro p c
    refine .bind (reading_exprHead ih (reading_typeExpr n) n c) fun e w c' ⟨q, hq, he, hstop⟩ => ?_
    exact reading_exprTail ih p n c' e q w he (.inr hq) hstop

end Parse

end Quill
