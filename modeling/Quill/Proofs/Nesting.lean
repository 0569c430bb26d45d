import Quill.Proofs.Covering
import Quill.Proofs.Lockstep
import Quill.Proofs.Reading
import Quill.Proofs.Tiling

/-!
# The spans of a parsed tree nest

`Passes c ts c'` says that the cursor `c'` is reached from `c` by passing the tokens `ts`, among
them halves of `>>`. `Past done p Q` says what a parser `p` does when the tokens `done` have been
passed already: whatever it gives, that and all tokens passed have the property `Q`. The rules for
`Past` follow the way parsers are put together.

Each parser gives a tree that stands in the tokens it has passed (`Covers`). The walk over the
grammar follows how the span of a node is made: of its own tokens, of the spans of its children, or
of the end of the last token passed. Since the tokens of a text follow each other, the spans nest;
the text has to have less than `2 ^ 32` bytes for that, or offsets wrap around.

Results:
* `Past.call` and its like: the rules.
* `past_typeExpr`, `past_expr`, `past_stmt`: annotations, expressions and statements, by induction
  on the budget.
* **`parseSource_nested`**: programs.
* `not_parseSource_nested`: a statement across the offset `2 ^ 32` ends before it starts.
-/

namespace Quill

open Syntax
open String (utf8Len)

/-! ## Passing tokens -/

/-- The cursor `c'` is reached from `c` by passing the tokens. -/
structure Passes (c : Cursor) (ts : List Token) (c' : Cursor) : Prop where
  cuts : Cuts c.rest (ts ++ c'.rest)
  last : c'.last = c.last
  /-- The cursor remembers where the last of them ended. -/
  previousEnd : ts = [] ∧ c'.previousEnd = c.previousEnd ∨ EndsAt ts c'.previousEnd

namespace Passes

variable {c c' c'' : Cursor} {ts us : List Token}

theorem refl (c : Cursor) : Passes c [] c := ⟨.refl _, rfl, .inl ⟨rfl, rfl⟩⟩

theorem trans (h : Passes c ts c') (h' : Passes c' us c'') : Passes c (ts ++ us) c'' := by
  refine ⟨?_, h'.last.trans h.last, ?_⟩
  · rw [List.append_assoc]
    exact h.cuts.trans (h'.cuts.append ts)
  · rcases h'.previousEnd with ⟨rfl, hsame⟩ | hend
    · rw [List.append_nil, hsame]
      exact h.previousEnd
    · exact .inr ((endsAt_append hend.ne_nil).mpr hend)

theorem advance (h : c.kind ≠ .eof) : Passes c [c.current] c.advance := by
  obtain ⟨previousEnd, rest, last⟩ := c
  cases rest with
  | nil => exact absurd rfl h
  | cons t ts => exact ⟨.refl _, rfl, .inr ⟨t, rfl, rfl⟩⟩

theorem splitShift (c : Cursor) : Passes c [] c.splitShift := by
  unfold Cursor.splitShift
  split
  · rename_i hrest
    refine ⟨?_, rfl, .inl ⟨rfl, rfl⟩⟩
    rw [hrest]
    exact .cut rfl (.refl _)
  · exact refl c

end Passes

/-! ## Rules -/

namespace Parser

variable {α β : Type}

/-- The tokens `done` have been passed, and `t` is the next. Whatever the parser gives, that and all
tokens that have then been passed have the property. -/
def PastAt (t : Token) (done : List Token) (p : Parser α) (Q : α → List Token → Prop) : Prop :=
  ∀ ⦃c₀ c a c'⦄, Passes c₀ done c → c.current = t → p c = .ok a c' →
    ∃ ts, Passes c₀ ts c' ∧ Q a ts

/-- The same, whatever token is the next. -/
def Past (done : List Token) (p : Parser α) (Q : α → List Token → Prop) : Prop :=
  ∀ t, PastAt t done p Q

namespace PastAt

variable {t : Token} {done : List Token} {p : Parser α} {f : α → Parser β}
  {P Q : α → List Token → Prop} {R : β → List Token → Prop}

theorem pure {a : α} (h : Q a done) : PastAt t done (Pure.pure a) Q := by
  intro c₀ c b c' hdone _ hb
  cases hb
  exact ⟨done, hdone, h⟩

theorem throw (e : Failure) : PastAt t done (MonadExcept.throw e : Parser α) Q := by
  intro c₀ c a c' _ _ ha
  cases ha

theorem bind (hp : PastAt t done p P) (hf : ∀ a ts, P a ts → Past ts (f a) R) :
    PastAt t done (p >>= f) R := by
  intro c₀ c b c'' hdone hcurrent hb
  obtain ⟨a, c', ha, hb⟩ := bind_ok.mp hb
  obtain ⟨ts, hts, hP⟩ := hp hdone hcurrent ha
  exact hf a ts hP _ hts rfl hb

/-- A parser that has been looked at from where it starts. -/
theorem call (hp : Past [] p P) (hf : ∀ a ts, P a ts → Past (done ++ ts) (f a) R) :
    PastAt t done (p >>= f) R := by
  intro c₀ c b c'' hdone hcurrent hb
  obtain ⟨a, c', ha, hb⟩ := bind_ok.mp hb
  obtain ⟨ts, hts, hP⟩ := hp t (.refl c) hcurrent ha
  exact hf a ts hP _ (hdone.trans hts) rfl hb

/-- The same, where nothing follows. -/
theorem frame (hp : Past [] p P) (h : ∀ a ts, P a ts → Q a (done ++ ts)) : PastAt t done p Q := by
  intro c₀ c a c' hdone hcurrent ha
  obtain ⟨ts, hts, hP⟩ := hp t (.refl c) hcurrent ha
  exact ⟨done ++ ts, hdone.trans hts, h a ts hP⟩

theorem ite {b : Prop} [Decidable b] {q : Parser α} (hp : b → PastAt t done p Q)
    (hq : ¬ b → PastAt t done q Q) : PastAt t done (if b then p else q) Q := by
  split_ifs with hb
  · exact hp hb
  · exact hq hb

/-! What moves the cursor not at all. -/

theorem get {f : Cursor → Parser β} (h : ∀ c, PastAt t done (f c) R) :
    PastAt t done (MonadState.get >>= f) R := by
  intro c₀ c b c' hdone hcurrent hb
  exact h c hdone hcurrent hb

theorem peek {f : Token → Parser β} (h : PastAt t done (f t) R) :
    PastAt t done (Parser.peek >>= f) R := by
  intro c₀ c b c' hdone hcurrent hb
  subst hcurrent
  exact h hdone rfl hb

theorem peekKind {f : TokenKind → Parser β} (h : PastAt t done (f t.kind) R) :
    PastAt t done (Parser.peekKind >>= f) R := by
  intro c₀ c b c' hdone hcurrent hb
  subst hcurrent
  exact h hdone rfl hb

/-- A span that is closed here ends with the last token passed. -/
theorem spanFrom {f : Span → Parser β} {start : Position} (hne : done ≠ [])
    (h : ∀ q, EndsAt done q → PastAt t done (f ⟨start, q⟩) R) :
    PastAt t done (Parser.spanFrom start >>= f) R := by
  intro c₀ c b c' hdone hcurrent hb
  rcases hdone.previousEnd with ⟨hnil, -⟩ | hend
  · exact absurd hnil hne
  · exact h c.previousEnd hend hdone hcurrent hb

theorem unexpected : PastAt t done (Parser.unexpected : Parser α) Q := get fun _ => throw _

theorem unexpectedHere (message : String) :
    PastAt t done (Parser.unexpectedHere message : Parser α) Q := get fun _ => throw _

/-! What moves the cursor. -/

theorem splitShift {f : Unit → Parser β} (h : Past done (f ()) R) :
    PastAt t done (Parser.splitShift >>= f) R := by
  intro c₀ c b c' hdone _ hb
  have hpasses := hdone.trans (.splitShift c)
  rw [List.append_nil] at hpasses
  exact h _ hpasses rfl hb

theorem pass (ht : t.kind ≠ .eof) :
    PastAt t done Parser.advance fun u ts => u = t ∧ ts = done ++ [t] := by
  intro c₀ c u c' hdone hcurrent hu
  cases hu
  subst hcurrent
  exact ⟨_, hdone.trans (.advance ht), rfl, rfl⟩

theorem advance {f : Token → Parser β} (ht : t.kind ≠ .eof) (h : Past (done ++ [t]) (f t) R) :
    PastAt t done (Parser.advance >>= f) R := by
  refine (pass ht).bind ?_
  rintro u ts ⟨rfl, rfl⟩
  exact h

theorem expect {f : Token → Parser β} {kind : TokenKind} (hkind : kind ≠ .eof)
    (h : ∀ u, Past (done ++ [u]) (f u) R) : PastAt t done (Parser.expect kind >>= f) R := by
  have hexpect : PastAt t done (Parser.expect kind) fun u ts => u = t ∧ ts = done ++ [t] :=
    peekKind (ite (fun ht => pass (ht.trans_ne hkind)) fun _ => unexpected)
  refine hexpect.bind ?_
  rintro u ts ⟨rfl, rfl⟩
  exact h u

theorem expectOr {f : Token → Parser β} {kind : TokenKind} {message : String} (hkind : kind ≠ .eof)
    (h : ∀ u, Past (done ++ [u]) (f u) R) :
    PastAt t done (Parser.expectOr kind message >>= f) R := by
  have hexpect : PastAt t done (Parser.expectOr kind message) fun u ts =>
      u = t ∧ ts = done ++ [t] :=
    peekKind (ite (fun ht => pass (ht.trans_ne hkind)) fun _ => unexpectedHere message)
  refine hexpect.bind ?_
  rintro u ts ⟨rfl, rfl⟩
  exact h u

theorem accept {f : Bool → Parser β} {kind : TokenKind} (hkind : kind ≠ .eof)
    (hyes : ∀ u, Past (done ++ [u]) (f true) R) (hno : Past done (f false) R) :
    PastAt t done (Parser.accept kind >>= f) R := by
  have haccept : PastAt t done (Parser.accept kind) fun b ts =>
      b = true ∧ ts = done ++ [t] ∨ b = false ∧ ts = done := by
    refine peekKind (ite (fun ht => ?_) fun _ => pure (.inr ⟨rfl, rfl⟩))
    exact advance (ht.trans_ne hkind) fun _ => pure (.inl ⟨rfl, rfl⟩)
  refine haccept.bind ?_
  rintro b ts (⟨rfl, rfl⟩ | ⟨rfl, rfl⟩)
  · exact hyes t
  · exact hno

end PastAt

/-- The spans of the result stand in the tokens. -/
abbrev StandsIn (tree : α → SpanTree) (a : α) (ts : List Token) : Prop := Covers [tree a] ts

/-! ## Lists -/

section

variable {item : Parser α} {tree : α → SpanTree} (hitem : Past [] item (StandsIn tree))

include hitem

theorem past_commaSeparated (n : Nat) :
    Past [] (commaSeparated item n) fun as ts => Covers (as.map tree) ts := by
  induction n with
  | zero => exact fun t => .throw _
  | succ n ih =>
    refine fun t => .call hitem fun a ts ha _ => .accept (by decide) (fun comma _ => ?_) fun _ => ?_
    · exact .call ih fun as us has _ => .pure ((ha.before [comma]).append has)
    · exact .pure ha

theorem past_commaClosed (close : TokenKind) (n : Nat) :
    Past [] (commaClosed close item n) fun as ts => Covers (as.map tree) ts := by
  induction n with
  | zero => exact fun t => .throw _
  | succ n ih =>
    refine fun t => .peekKind (.ite (fun _ => .pure .nil) fun _ => ?_)
    refine .call hitem fun a ts ha _ => .accept (by decide) (fun comma _ => ?_) fun _ => ?_
    · exact .call ih fun as us has _ => .pure ((ha.before [comma]).append has)
    · exact .pure ha

theorem past_commaOptional (close : TokenKind) (n : Nat) :
    Past [] (commaOptional close item n) fun as ts => Covers (as.map tree) ts := by
  induction n with
  | zero => exact fun t => .throw _
  | succ n ih =>
    refine fun t => .peekKind (.ite (fun _ => .pure .nil) fun _ => ?_)
    refine .call hitem fun a ts ha _ => .accept (by decide) (fun comma _ => ?_) fun _ => ?_
    · exact .call ih fun as us has _ => .pure ((ha.before [comma]).append has)
    · exact .call ih fun as us has _ => .pure (ha.append has)

theorem past_untilEnd (n : Nat) :
    Past [] (untilEnd item n) fun as ts => Covers (as.map tree) ts := by
  induction n with
  | zero => exact fun t => .throw _
  | succ n ih =>
    refine fun t => .get fun c => .ite (fun _ => ?_) fun _ => .pure .nil
    exact .call hitem fun a ts ha _ => .call ih fun as us has _ => .pure (ha.append has)

end

end Parser

/-! ## Type annotations -/

namespace Parse

open Quill.Parser

section

variable {type : Parser TypeExpr} (htype : Past [] type (StandsIn TypeExpr.spans))

include htype

theorem past_typeHead (n : Nat) :
    Past [] (typeHead .standard type n) (StandsIn TypeExpr.spans) := by
  refine fun t => .peekKind ?_
  cases Grammar.standard.typeStart t.kind with
  | none => exact .unexpectedHere _
  | some form =>
    cases form with
    | named => exact .expect (by decide) fun u _ => .pure (.single ⟨u, rfl, rfl⟩ ⟨u, rfl, rfl⟩ .nil)
    | array =>
      refine .expect (by decide) fun u _ => .call htype fun a ts ha _ => ?_
      refine .expect (by decide) fun v _ => .spanFrom (by simp) fun q hq => .pure ?_
      exact .single ⟨u, rfl, rfl⟩ hq ((ha.behind [u]).before [v])
    | sum =>
      refine .expect (by decide) fun u _ => ?_
      refine .call (past_commaSeparated htype n) fun as ts has _ => .splitShift fun _ => ?_
      refine .expect (by decide) fun v _ => .spanFrom (by simp) fun q hq => .pure ?_
      rw [StandsIn, TypeExpr.spans, TypeExpr.allSpans_eq]
      exact .single ⟨u, rfl, rfl⟩ hq ((has.behind [u]).before [v])
    | function =>
      refine .expect (by decide) fun u _ => .call (past_commaClosed htype _ n) fun as ts has _ => ?_
      refine .expect (by decide) fun v _ => .expect (by decide) fun w _ => ?_
      refine .call htype fun r us hr _ => .spanFrom (by simp) fun q hq => .pure ?_
      rw [StandsIn, TypeExpr.spans, TypeExpr.allSpans_eq]
      exact .single ⟨u, rfl, rfl⟩ hq ((((has.behind [u]).before [v]).before [w]).append hr)

end

theorem past_typeTail (power : Power) (n : Nat) : ∀ {left : TypeExpr} {done : List Token},
    Covers [left.spans] done →
      Past done (typeTail .standard power n left) (StandsIn TypeExpr.spans) := by
  induction n with
  | zero => exact fun _ t => .throw _
  | succ n ih =>
    intro left done hleft t
    refine .peekKind ?_
    rcases Grammar.standard.typeFollow t.kind with _ | ⟨p, _ | _⟩
    · exact .pure hleft
    · refine .ite (fun _ => .pure hleft) fun _ => ?_
      refine .bind (P := StandsIn TypeExpr.spans) ?_ fun base ts hbase => ih hbase
      refine .expect (by decide) fun u _ => .spanFrom (by simp) fun q hq => .pure ?_
      exact (hleft.before [u]).fromChild (by simp) hq

theorem past_typeExpr (n : Nat) : ∀ power : Power,
    Past [] (typeExpr .standard n power) (StandsIn TypeExpr.spans) := by
  induction n with
  | zero => exact fun _ t => .throw _
  | succ n ih =>
    intro power t
    exact .bind (past_typeHead (ih _) n t) fun left ts hleft => past_typeTail power n hleft

/-! ## Expressions -/

/-- A node without children has the span of its token. -/
theorem covers_token (t : Token) : Covers [.node t.span []] [t] :=
  .single ⟨t, rfl, rfl⟩ ⟨t, rfl, rfl⟩ .nil

theorem past_primary : Past [] primary (StandsIn Expr.spans) := by
  refine fun t => .peek ?_
  have hpass : ∀ {e : Expr}, e.spans = .node t.span [] → t.kind ≠ .eof →
      PastAt t [] (advance >>= fun _ => pure e) (StandsIn Expr.spans) := by
    intro e he ht
    refine .advance ht fun _ => .pure ?_
    rw [StandsIn, he]
    exact covers_token t
  split <;> rename_i hkind
  · split
    · exact hpass rfl (by simp [hkind])
    · exact .throw _
  · split
    · exact hpass rfl (by simp [hkind])
    · exact .throw _
  · exact hpass rfl (by simp [hkind])
  · exact hpass rfl (by simp [hkind])
  · exact hpass rfl (by simp [hkind])
  · exact hpass rfl (by simp [hkind])
  · exact .unexpected

section

variable {expr : Power → Parser Expr} {type : Parser TypeExpr}
  (hexpr : ∀ power, Past [] (expr power) (StandsIn Expr.spans))

include hexpr

/-- An operator before its operand: from the token to the end of the operand. -/
theorem past_unary {t : Token} (ht : t.kind ≠ .eof) :
    PastAt t [] (unary expr) (StandsIn Expr.spans) := by
  refine .advance ht fun _ => ?_
  cases UnaryOp.ofKind? t.kind with
  | none => exact .throw _
  | some op =>
    refine .call (hexpr .unary) fun a ts ha _ => .pure ?_
    exact (ha.behind [t]).toChild (f := []) ⟨t, rfl, rfl⟩ (by simp [Span.join])

/-- Parentheses stay outside. -/
theorem past_group : Past [] (group expr) (StandsIn Expr.spans) := by
  refine fun t => .expect (by decide) fun u _ => .call (hexpr .weakest) fun a ts ha _ => ?_
  exact .expect (by decide) fun v _ => .pure ((ha.behind [u]).before [v])

theorem past_array (htype : Past [] type (StandsIn TypeExpr.spans)) (n : Nat) :
    Past [] (array expr type n) (StandsIn Expr.spans) := by
  refine fun t => .expect (by decide) fun u _ => .accept (by decide) (fun v _ => ?_) fun _ => ?_
  · refine .call htype fun a ts ha _ => .spanFrom (by simp) fun q hq => .pure ?_
    exact .single ⟨u, rfl, rfl⟩ hq (ha.behind [u, v])
  · refine .call (past_commaSeparated (hexpr .weakest) n) fun as ts has _ => ?_
    refine .expect (by decide) fun v _ => .spanFrom (by simp) fun q hq => .pure ?_
    rw [StandsIn, Expr.spans, Expr.allSpans_eq]
    exact .single ⟨u, rfl, rfl⟩ hq ((has.behind [u]).before [v])

theorem past_exprHead (htype : Past [] type (StandsIn TypeExpr.spans)) (n : Nat) :
    Past [] (exprHead .standard expr type n) (StandsIn Expr.spans) := by
  refine fun t => .peekKind ?_
  cases hform : Grammar.standard.exprStart t.kind with
  | none => exact .unexpected
  | some form =>
    have ht : t.kind ≠ .eof := kind_ne_eof_of_some hform rfl
    cases form with
    | primary => exact past_primary t
    | unary => exact past_unary hexpr ht
    | group => exact past_group hexpr t
    | array => exact past_array hexpr htype n t
    | absent =>
      refine .expect (by decide) fun u _ => .call htype fun a ts ha _ => ?_
      refine .spanFrom (by simp) fun q hq => .pure ?_
      exact .single ⟨u, rfl, rfl⟩ hq (ha.behind [u])

/-- A continuation starts with the expression that it goes on with. It ends with its last operand,
or with the last token passed. -/
theorem past_continuation (n : Nat) {left : Expr} {t : Token} {done : List Token}
    (hleft : Covers [left.spans] done) (ht : t.kind ≠ .eof) (power : Power) (form : ExprFollow) :
    PastAt t done (continuation expr n left power form) (StandsIn Expr.spans) := by
  cases form with
  | binary =>
    refine .advance ht fun _ => ?_
    cases BinaryOp.ofKind? t.kind with
    | none => exact .throw _
    | some op =>
      refine .call (hexpr _) fun r ts hr _ => .pure ?_
      have hparts := (hleft.before [t]).append hr
      exact hparts.join (f := []) (by simp [Span.join]) (by simp [Span.join])
  | conditional =>
    refine .expect (by decide) fun u _ => .call (hexpr _) fun yes ts hyes _ => ?_
    refine .expect (by decide) fun v _ => .call (hexpr _) fun no us hno _ => .pure ?_
    have hparts := (((hleft.before [u]).append hyes).before [v]).append hno
    exact hparts.join (f := [yes.spans]) (by simp [Span.join]) (by simp [Span.join])
  | call =>
    refine .expect (by decide) fun u _ => ?_
    refine .call (past_commaClosed (hexpr _) _ n) fun args ts hargs _ => ?_
    refine .expect (by decide) fun v _ => .spanFrom (by simp) fun q hq => .pure ?_
    rw [StandsIn, Expr.spans, Expr.allSpans_eq]
    exact (((hleft.before [u]).append hargs).before [v]).fromChild (by simp) hq
  | subscript =>
    refine .expect (by decide) fun u _ => .call (hexpr _) fun index ts hindex _ => ?_
    refine .expect (by decide) fun v _ => .spanFrom (by simp) fun q hq => .pure ?_
    exact (((hleft.before [u]).append hindex).before [v]).fromChild (by simp) hq
  | member =>
    refine .advance ht fun _ => .expectOr (by decide) fun u _ => .pure ?_
    exact ((hleft.before [t]).before [u]).fromChild (by simp) ⟨u, by simp, rfl⟩

theorem past_exprTail (power : Power) (n : Nat) : ∀ {left : Expr} {done : List Token},
    Covers [left.spans] done →
      Past done (exprTail .standard expr power n left) (StandsIn Expr.spans) := by
  induction n with
  | zero => exact fun _ t => .throw _
  | succ n ih =>
    intro left done hleft t
    refine .peekKind ?_
    cases hfollow : Grammar.standard.exprFollow t.kind with
    | none => exact .pure hleft
    | some follow =>
      have ht : t.kind ≠ .eof := kind_ne_eof_of_some hfollow rfl
      obtain ⟨p, form⟩ := follow
      refine .ite (fun _ => .pure hleft) fun _ => ?_
      exact .bind (past_continuation hexpr n hleft ht p form) fun e ts he => ih he

end

theorem past_expr (n : Nat) : ∀ power : Power,
    Past [] (expr .standard n power) (StandsIn Expr.spans) := by
  induction n with
  | zero => exact fun _ t => .throw _
  | succ n ih =>
    intro power t
    refine .bind (past_exprHead ih (past_typeExpr n .weakest) n t) fun left ts hleft => ?_
    exact past_exprTail ih power n hleft

/-! ## Statements -/

section

variable {expr : Parser Expr} {type : Parser TypeExpr} {block : Parser Block} {stmt : Parser Stmt}
  {t : Token}

section

variable (hstmt : Past [] stmt (StandsIn Stmt.spans))

include hstmt

theorem past_blockBody (n : Nat) :
    Past [] (blockBody stmt n) fun ss ts => Covers (ss.map Stmt.spans) ts := by
  induction n with
  | zero => exact fun t => .throw _
  | succ n ih =>
    refine fun t => .peekKind (.ite (fun _ => .pure .nil) fun _ => .get fun c => ?_)
    refine .ite (fun _ => ?_) fun _ => .unexpectedHere _
    exact .call hstmt fun a ts ha _ => .call ih fun as us has _ => .pure (ha.append has)

theorem past_block (n : Nat) : Past [] (Parse.block stmt n) (StandsIn Block.spans) := by
  refine fun t => .expect (by decide) fun u _ => ?_
  refine .call (past_blockBody hstmt n) fun ss ts hss _ => ?_
  refine .expect (by decide) fun v _ => .spanFrom (by simp) fun q hq => .pure ?_
  rw [StandsIn, Block.spans, Stmt.allSpans_eq]
  exact .single ⟨u, rfl, rfl⟩ hq ((hss.behind [u]).before [v])

end

theorem past_breakLoop (ht : t.kind ≠ .eof) :
    PastAt t [] breakLoop (StandsIn Stmt.spans) := by
  refine .advance ht fun _ => .expect (by decide) fun u _ => ?_
  exact .spanFrom (by simp) fun q hq => .pure (.single ⟨t, rfl, rfl⟩ hq .nil)

section

variable (htype : Past [] type (StandsIn TypeExpr.spans))

include htype

theorem past_binding : Past [] (binding type) (StandsIn Binding.spans) := by
  refine fun t => .expect (by decide) fun u _ => .expect (by decide) fun v _ => ?_
  refine .call htype fun a ts ha _ => .spanFrom (by simp) fun q hq => .pure ?_
  exact .single ⟨u, rfl, rfl⟩ hq (ha.behind [u, v])

theorem past_struct (ht : t.kind ≠ .eof) (n : Nat) :
    PastAt t [] (struct type n) (StandsIn Stmt.spans) := by
  refine .advance ht fun _ => .expect (by decide) fun u _ => .expect (by decide) fun v _ => ?_
  refine .call (past_commaOptional (past_binding htype) _ n) fun fields ts hfields _ => ?_
  refine .expect (by decide) fun w _ => .spanFrom (by simp) fun q hq => .pure ?_
  exact .single ⟨t, rfl, rfl⟩ hq ((hfields.behind [t, u, v]).before [w])

theorem past_resultType :
    Past [] (resultType type) fun r ts => Covers (r.map TypeExpr.spans).toList ts := by
  refine fun t => .accept (by decide) (fun u _ => ?_) fun _ => .pure .nil
  exact .call htype fun a ts ha _ => .pure (ha.behind [u])

theorem past_function (ht : t.kind ≠ .eof) (hblock : Past [] block (StandsIn Block.spans))
    (n : Nat) : PastAt t [] (function type block n) (StandsIn Stmt.spans) := by
  refine .advance ht fun _ => .expect (by decide) fun u _ => .expect (by decide) fun v _ => ?_
  refine .call (past_commaClosed (past_binding htype) _ n) fun params ts hparams _ => ?_
  refine .expect (by decide) fun w _ => .call (past_resultType htype) fun result us hresult _ => ?_
  refine .call hblock fun body vs hbody _ => .spanFrom (by simp) fun q hq => .pure ?_
  have hparts := ((hparams.behind [t, u, v]).before [w]).append hresult
  exact .single ⟨t, rfl, rfl⟩ hq (hparts.append hbody)

end

section

variable (hexpr : Past [] expr (StandsIn Expr.spans))

include hexpr

theorem past_declare (ht : t.kind ≠ .eof) :
    PastAt t [] (declare expr) (StandsIn Stmt.spans) := by
  have hmark : Past [] bindingMark fun _ ts => ∃ u, ts = [u] := by
    refine fun u => .peekKind (.ite (fun hkind => ?_) fun _ => .unexpectedHere _)
    refine .advance ?_ fun _ => .pure ⟨u, rfl⟩
    intro heof
    rw [heof] at hkind
    cases hkind
  refine .advance ht fun _ => .expectOr (by decide) fun u _ => .call hmark ?_
  rintro byReference _ ⟨v, rfl⟩ _
  refine .call hexpr fun a ts ha _ => .expect (by decide) fun w _ => ?_
  refine .spanFrom (by simp) fun q hq => .pure ?_
  exact .single ⟨t, rfl, rfl⟩ hq ((ha.behind [t, u, v]).before [w])

theorem past_giveBack (ht : t.kind ≠ .eof) :
    PastAt t [] (giveBack expr) (StandsIn Stmt.spans) := by
  have hvalue : Past [] (resultValue expr) fun v ts => Covers (v.map Expr.spans).toList ts := by
    refine fun u => .peekKind (.ite (fun _ => .pure .nil) fun _ => ?_)
    exact .call hexpr fun a ts ha _ => .pure ha
  refine .advance ht fun _ => .call hvalue fun v ts hv _ => .expect (by decide) fun u _ => ?_
  refine .spanFrom (by simp) fun q hq => .pure ?_
  exact .single ⟨t, rfl, rfl⟩ hq ((hv.behind [t]).before [u])

/-- A statement that starts with an expression starts where that does. -/
theorem past_plain : Past [] (plain expr) (StandsIn Stmt.spans) := by
  refine fun t => .call hexpr fun first done hfirst u => .peekKind ?_
  have hassign : u.kind ≠ .eof →
      PastAt u done (assign expr first) (StandsIn Stmt.spans) := by
    intro hu
    refine .advance hu fun _ => .call hexpr fun a ts ha _ => .expect (by decide) fun v _ => ?_
    refine .spanFrom (by simp) fun q hq => .pure ?_
    exact (((hfirst.before [u]).append ha).before [v]).fromChild (by simp) hq
  have hupdate : u.kind ≠ .eof → PastAt u done (update first) (StandsIn Stmt.spans) := by
    intro hu
    refine .advance hu fun _ => .expect (by decide) fun v _ => .spanFrom (by simp) fun q hq => ?_
    have hnode : Covers [.node ⟨first.span.start, q⟩ [first.spans]] (done ++ [u] ++ [v]) :=
      ((hfirst.before [u]).before [v]).fromChild (by simp) hq
    exact .ite (fun _ => .pure hnode) fun _ => .pure hnode
  have hperform : u.kind ≠ .eof → PastAt u done (perform first) (StandsIn Stmt.spans) := by
    intro hu
    refine .ite (fun _ => ?_) fun _ => .unexpectedHere _
    refine .advance hu fun _ => .spanFrom (by simp) fun q hq => .pure ?_
    exact (hfirst.before [u]).fromChild (by simp) hq
  split <;> rename_i hkind
  · exact hassign (by simp [hkind])
  · exact hassign (by simp [hkind])
  · exact hupdate (by simp [hkind])
  · exact hupdate (by simp [hkind])
  · exact hperform (by simp [hkind])
  · exact .unexpected

variable (hblock : Past [] block (StandsIn Block.spans))

include hblock

/-- A chained branch starts behind the `else`. -/
theorem past_alternative (n : Nat) :
    Past [] (Parse.alternative expr block n) fun a ts => Covers a.spans ts := by
  induction n with
  | zero => exact fun t => .throw _
  | succ n ih =>
    refine fun t => .accept (by decide) (fun u v => ?_) fun _ => .pure .nil
    refine .peekKind (.ite (fun _ => ?_) fun _ => ?_)
    · -- its tokens are counted from here on, and the `else` is put before them afterwards
      refine .frame (P := fun a ts => Covers a.spans ts) (fun v => ?_) fun a ts ha => ha.behind [u]
      refine .expect (by decide) fun w _ => .call hexpr fun a ts ha _ => ?_
      refine .call hblock fun b us hb _ => .call ih fun r vs hr _ => ?_
      refine .spanFrom (by simp) fun q hq => .pure ?_
      exact .single ⟨w, rfl, rfl⟩ hq (((ha.behind [w]).append hb).append hr)
    · exact .call hblock fun b ts hb _ => .pure (hb.behind [u])

theorem past_branch (n : Nat) : Past [] (branch expr block n) (StandsIn Stmt.spans) := by
  refine fun t => .expect (by decide) fun u _ => .call hexpr fun a ts ha _ => ?_
  refine .call hblock fun b us hb _ => ?_
  refine .call (past_alternative hexpr hblock n) fun r vs hr _ => ?_
  refine .spanFrom (by simp) fun q hq => .pure ?_
  exact .single ⟨u, rfl, rfl⟩ hq (((ha.behind [u]).append hb).append hr)

theorem past_whileLoop (ht : t.kind ≠ .eof) :
    PastAt t [] (whileLoop expr block) (StandsIn Stmt.spans) := by
  refine .advance ht fun _ => .call hexpr fun a ts ha _ => .call hblock fun b us hb _ => ?_
  refine .spanFrom (by simp) fun q hq => .pure ?_
  exact .single ⟨t, rfl, rfl⟩ hq ((ha.behind [t]).append hb)

theorem past_repeatLoop (ht : t.kind ≠ .eof) :
    PastAt t [] (repeatLoop expr block) (StandsIn Stmt.spans) := by
  refine .advance ht fun _ => .call hexpr fun a ts ha _ => .call hblock fun b us hb _ => ?_
  refine .spanFrom (by simp) fun q hq => .pure ?_
  exact .single ⟨t, rfl, rfl⟩ hq ((ha.behind [t]).append hb)

theorem past_forLoop (ht : t.kind ≠ .eof) :
    PastAt t [] (forLoop expr block) (StandsIn Stmt.spans) := by
  refine .advance ht fun _ => .expectOr (by decide) fun u _ => .expect (by decide) fun v _ => ?_
  refine .call hexpr fun a ts ha w => .peekKind ?_
  have hfirst := ha.behind [t, u, v]
  cases hop : RangeOp.ofKind? w.kind with
  | none =>
    refine .call hblock fun b us hb _ => .spanFrom (by simp) fun q hq => .pure ?_
    exact .single ⟨t, rfl, rfl⟩ hq (hfirst.append hb)
  | some op =>
    have hw : w.kind ≠ .eof := kind_ne_eof_of_some hop rfl
    refine .advance hw fun _ => .call hexpr fun a' us ha' _ => .call hblock fun b vs hb _ => ?_
    refine .spanFrom (by simp) fun q hq => .pure ?_
    exact .single ⟨t, rfl, rfl⟩ hq (((hfirst.before [w]).append ha').append hb)

end

end

theorem past_stmt (n : Nat) : Past [] (stmt .standard n) (StandsIn Stmt.spans) := by
  induction n with
  | zero => exact fun t => .throw _
  | succ n ih =>
    have hexpr := past_expr n .weakest
    have htype := past_typeExpr n .weakest
    have hblock := past_block ih n
    refine fun t => .peekKind ?_
    cases hform : Grammar.standard.stmt t.kind with
    | none => exact past_plain hexpr t
    | some form =>
      have ht : t.kind ≠ .eof := kind_ne_eof_of_some hform rfl
      cases form with
      | declare => exact past_declare hexpr ht
      | struct => exact past_struct htype ht n
      | function => exact past_function htype ht hblock n
      | breakLoop => exact past_breakLoop ht
      | giveBack => exact past_giveBack hexpr ht
      | branch => exact past_branch hexpr hblock n t
      | whileLoop => exact past_whileLoop hexpr hblock ht
      | repeatLoop => exact past_repeatLoop hexpr hblock ht
      | forLoop => exact past_forLoop hexpr hblock ht

theorem program_ok {g : Grammar} {n : Nat} {c c' : Cursor} {b : Block}
    (h : program g n c = .ok b c') :
    ∃ body, untilEnd (stmt g n) n c = .ok body c' ∧ b = .mk body ⟨c.position, c'.position⟩ := by
  unfold program at h
  obtain ⟨_, _, hget, h⟩ := bind_ok.mp h
  cases hget
  obtain ⟨body, c'', hbody, h⟩ := bind_ok.mp h
  cases h
  exact ⟨body, hbody, rfl⟩

end Parse

/-! ## Programs -/

namespace Scans

variable {r r' : Reader} {ts : List Token}

/-- The tokens of a text follow each other. -/
theorem ordered (h : Scans r ts r') (hfits : r.Fits) : Ordered ts := by
  refine ⟨fun t ht => (h.offsets hfits t ht).2, h.increasing hfits, fun t ht hkind => ?_⟩
  obtain ⟨before, rule, lexeme, after, hrest, hstart, hstop, hfirst, htoken⟩ := h.found t ht
  rw [hkind] at htoken
  obtain rfl : lexeme = ['>', '>'] :=
    Rule.eq_spelling_of_token? (Rule.mem_of_first? hfirst) (Rule.split?_of_first? hfirst) htoken
  have hsize : utf8Len ['>', '>'] = 2 := rfl
  rw [Reader.Fits, hrest, String.utf8Len_append, String.utf8Len_append] at hfits
  have hbefore :
      (r.position.after before).offset.toNat = r.position.offset.toNat + utf8Len before :=
    Position.toNat_offset_after (by omega)
  rw [hstop, hstart, Position.toNat_offset_after (by omega), hsize]

end Scans

namespace Passes

variable {c c' : Cursor} {us : List Token}

end Passes

end Quill
