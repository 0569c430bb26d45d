import Quill.Proofs.Steps

/-!
# What parsers take

The weight of a cursor is the number of tokens from it on, with each `>>` counted twice. Passing a
token takes from it, unless the token is the closing one, which is never passed; cutting a `>>` in
two leaves it as it is. Nothing else moves a cursor.

`Descends c k Q p q` says what two parsers do side by side, `p` at one of two cursors that are alike
and `q` at the other: both have results, which `Q` relates, or both have faults that are alike. A
success takes at least `k` off the weight; a failure adds nothing to it and is a fault of the
tokens, in their form. The run of `p` can be taken apart into steps, and passes no closing token.
The two parsers differ in those that they call for their parts, and it is enough that these agree
where they are called. `Completes c k Q p q` says in addition that a success of `p` does not depend
on what follows the tokens it has taken, except for an `else`.

So one walk over the grammar shows several things at once: that tokens which differ in their places
only are read in the same way; that every success takes something; that a parser with a budget of
the weight never uses it up, and does not depend on it; with `below`, which makes a parser give up
at cursors that are too heavy, where calls are made; which faults are found; that nothing behind a
closing token is read; and what is read ahead of a statement.

Results:
* `Descends.bindBy`, `Completes.bind` and their like: the rules.
* `descends_separated` and its like: the rounds of the loops.
* `descends_typeExpr`, `descends_expr`, `completes_stmt`, `descends_program`: annotations,
  expressions, statements and programs, by induction on the budget.
-/

namespace Quill

open Syntax

variable {R : Correspondence}

/-! ## Side by side -/

/-- Two cursors that are alike. -/
structure Cursor.Pair (R : Correspondence) where
  left : Cursor
  right : Cursor
  alike : left.Alike R right

namespace Cursor.Pair

/-- What is left on both sides. -/
abbrev weight (c : Pair R) : Nat := c.left.weight

/-- The kind of the current token on both sides. -/
abbrev kind (c : Pair R) : TokenKind := c.left.kind

/-- A cursor beside itself. -/
abbrev twice (c : Cursor) : Pair .same := ⟨c, c, c.alike_self⟩

end Cursor.Pair

/-- The diagnostics have one cause, at places that correspond. -/
structure Diagnostic.Alike (R : Correspondence) (d e : Diagnostic) : Prop where
  cause : d.cause = e.cause
  position : R.starts d.position e.position

/-- Two whole programs that are alike: the span of a whole is made of two starts. -/
structure Syntax.Block.WholeAlike (R : Correspondence) (a b : Block) : Prop where
  body : List.Forall₂ (Stmt.Alike R) a.body b.body
  start : R.starts a.span.start b.span.start
  stop : R.starts a.span.stop b.span.stop

theorem Syntax.Block.eq_of_wholeAlike {a b : Block} (h : a.WholeAlike .same b) : a = b := by
  obtain ⟨as, s⟩ := a
  obtain ⟨bs, t⟩ := b
  have hspan : s = t := Correspondence.eq_of_spans ⟨h.start, h.stop⟩
  exact congrArg₂ Block.mk (Stmt.all_eq_of_alike h.body) hspan

namespace Parser

variable {α β γ δ : Type}

/-- Both are results, related by `Q`, or both are faults that are alike; the cursors are alike in
any case. -/
inductive Outcomes (R : Correspondence) (Q : α → β → Prop) :
    EStateM.Result Failure Cursor α → EStateM.Result Failure Cursor β → Prop
  | ok {a : α} {b : β} {c d : Cursor} (h : Q a b) (hc : c.Alike R d) :
      Outcomes R Q (.ok a c) (.ok b d)
  | fault {d e : Diagnostic} {c c' : Cursor} (h : d.Alike R e) (hc : c.Alike R c') :
      Outcomes R Q (.error (.fault d) c) (.error (.fault e) c')

/-! ## Rules -/

/-- What a run leaves of the weight `w`: a success takes at least `k` off it. A failure adds
nothing, and is not for want of budget but a fault in the form of the tokens. -/
def Spends (w k : Nat) : EStateM.Result Failure Cursor α → Prop
  | .ok _ c => c.weight + k ≤ w
  | .error f c => c.weight ≤ w ∧ ∃ d, f = .fault d ∧ d.OfForm

/-- What is left of a lesser weight is left of a greater one. -/
theorem Spends.trans {v w j k : Nat} {r : EStateM.Result Failure Cursor α} (h : Spends v j r)
    (hvw : v + k ≤ w + j) (hle : v ≤ w) : Spends w k r := by
  cases r with
  | ok a c =>
    change c.weight + j ≤ v at h
    change c.weight + k ≤ w
    omega
  | error e c => exact ⟨h.1.trans hle, h.2⟩

/-- The run from the cursor can be taken apart into steps, and passes no closing token. -/
def Steady (c : Cursor) (p : Parser α) : Prop :=
  ∃ ds, Walks p c (p c) ds ∧ (left (p c)).endsAhead = c.endsAhead

/-- Side by side the two parsers do the same, step by step, and a success takes at least `k` off the
weight. -/
structure Descends (c : Cursor.Pair R) (k : Nat) (Q : α → β → Prop) (p : Parser α)
    (q : Parser β) : Prop where
  outcomes : Outcomes R Q (p c.left) (q c.right)
  spends : Spends c.weight k (p c.left)
  steady : Steady c.left p

/-- The parser where the cursor is lighter than `c`; elsewhere it gives up. -/
def below (c : Cursor) (p : Parser α) : Parser α := fun c' =>
  if c'.weight < c.weight then p c' else .error .exhausted c'

namespace Descends

variable {c : Cursor.Pair R} {k : Nat} {P : α → β → Prop} {Q : γ → δ → Prop} {p p' : Parser α}
  {q q' : Parser β} {f : α → Parser γ} {g : β → Parser δ}

/-- At one cursor, parsers whose results are the same do the same. -/
theorem same {c : Cursor} {P : α → α → Prop} {q : Parser α} (h : Descends (.twice c) k P p q)
    (hP : ∀ {a b}, P a b → a = b) : p c = q c := by
  have hout : Outcomes .same P (p c) (q c) := h.outcomes
  generalize p c = x at hout
  generalize q c = y at hout
  cases hout with
  | ok hab hc => rw [hP hab, Cursor.eq_of_alike hc]
  | @fault d e _ _ hde hc =>
    obtain ⟨cause, position⟩ := d
    obtain ⟨cause', position'⟩ := e
    obtain ⟨hcause, hposition⟩ := hde
    obtain rfl : cause = cause' := hcause
    obtain rfl : position = position' := hposition
    rw [Cursor.eq_of_alike hc]

/-- A result of the first has one of the second beside it. -/
theorem beside (h : Descends c k P p q) {a : α} {c' : Cursor} (ha : p c.left = .ok a c') :
    ∃ (b : β) (d : Cursor), q c.right = .ok b d ∧ P a b ∧ c'.Alike R d ∧
      c'.weight + k ≤ c.weight := by
  have hout := h.outcomes
  have hspends := h.spends
  rw [ha] at hout hspends
  generalize q c.right = y at hout
  cases hout with
  | ok hab hc => exact ⟨_, _, rfl, hab, hc, hspends⟩

theorem below {d : Cursor} (hd : c.weight < d.weight) (h : Descends c k P p q) :
    Descends c k P p (below d q) := by
  refine ⟨?_, h.spends, h.steady⟩
  rw [Parser.below, if_pos (c.alike.weight ▸ hd)]
  exact h.outcomes

theorem loosen (h : Descends c k P p q) : Descends c 0 P p q :=
  ⟨h.outcomes, h.spends.trans (by omega) le_rfl, h.steady⟩

theorem pure {a : α} {b : β} (h : P a b) : Descends c 0 P (Pure.pure a) (Pure.pure b) :=
  ⟨.ok h c.alike, Nat.le_refl _, _, .pure a c.left, rfl⟩

theorem fail {d e : Diagnostic} (h : d.OfForm) (hde : d.Alike R e) :
    Descends c k P (fail d : Parser α) (Parser.fail e : Parser β) :=
  ⟨.fault hde c.alike, ⟨Nat.le_refl _, d, rfl, h⟩, _, .throw (.fault d) c.left, rfl⟩

/-- One parser behind the other, at cursors that are lighter by what the first has taken. -/
theorem bindBy {i j : Nat} (hp : Descends c i P p q)
    (hf : ∀ a b, P a b → ∀ c' : Cursor.Pair R, c'.weight + i ≤ c.weight →
      Descends c' j Q (f a) (g b)) :
    Descends c (i + j) Q (p >>= f) (q >>= g) := by
  have hout := hp.outcomes
  have hspends := hp.spends
  obtain ⟨ds, hwalk, hends⟩ := hp.steady
  generalize hleft : p c.left = x at hout hspends hwalk hends
  generalize hright : q c.right = y at hout
  cases hout with
  | fault hde hc =>
    have herror : (p >>= f) c.left = .error _ _ := bind_of_error hleft
    refine ⟨?_, ?_, ds, ?_, ?_⟩
    · rw [herror, bind_of_error hright]
      exact .fault hde hc
    · rw [herror]
      exact hspends
    · rw [herror]
      exact hwalk.bindError
    · rw [herror]
      exact hends
  | @ok a b c₁ d₁ hab hc =>
    have hw : c₁.weight + i ≤ c.weight := hspends
    have hnext := hf a b hab ⟨c₁, d₁, hc⟩ hw
    have hspends' : Spends c₁.weight j (f a c₁) := hnext.spends
    obtain ⟨es, hwalk', hends'⟩ := hnext.steady
    have hok : (p >>= f) c.left = f a c₁ := bind_of_ok hleft
    refine ⟨?_, ?_, ds ++ es, ?_, ?_⟩
    · rw [hok, bind_of_ok hright]
      exact hnext.outcomes
    · rw [hok]
      exact hspends'.trans (by omega) (by omega)
    · rw [hok]
      exact hwalk.bind hwalk'
    · rw [hok]
      exact hends'.trans hends

theorem bind (hp : Descends c 0 P p q)
    (hf : ∀ a b, P a b → ∀ c' : Cursor.Pair R, c'.weight ≤ c.weight →
      Descends c' k Q (f a) (g b)) :
    Descends c k Q (p >>= f) (q >>= g) := by
  have h := hp.bindBy hf
  rwa [Nat.zero_add] at h

/-- Behind a parser that has taken something. -/
theorem bindLighter (hp : Descends c 1 P p q)
    (hf : ∀ a b, P a b → ∀ c' : Cursor.Pair R, c'.weight < c.weight →
      Descends c' 0 Q (f a) (g b)) :
    Descends c 1 Q (p >>= f) (q >>= g) :=
  hp.bindBy hf

theorem bindLoose (hp : Descends c 1 P p q)
    (hf : ∀ a b, P a b → ∀ c' : Cursor.Pair R, c'.weight < c.weight →
      Descends c' 0 Q (f a) (g b)) :
    Descends c 0 Q (p >>= f) (q >>= g) :=
  (hp.bindLighter hf).loosen

/-- A choice on something that both have seen. -/
theorem ite {b : Prop} [Decidable b] (hyes : b → Descends c k P p q)
    (hno : ¬ b → Descends c k P p' q') :
    Descends c k P (if b then p else p') (if b then q else q') := by
  split_ifs with h
  · exact hyes h
  · exact hno h

/-- What is read off the current tokens. -/
theorem peek {f : Token → Parser γ} {g : Token → Parser δ}
    (h : Descends c k Q (f c.left.current) (g c.right.current)) :
    Descends c k Q (Parser.peek >>= f) (Parser.peek >>= g) := by
  obtain ⟨ds, hwalk, hends⟩ := h.steady
  exact ⟨h.outcomes, h.spends, [] ++ ds, (Walks.peek c.left).bind hwalk, hends⟩

theorem peekKind {f : TokenKind → Parser γ} {g : TokenKind → Parser δ}
    (h : Descends c k Q (f c.kind) (g c.kind)) :
    Descends c k Q (Parser.peekKind >>= f) (Parser.peekKind >>= g) := by
  refine peek (f := fun t => f t.kind) (g := fun t => g t.kind) ?_
  change Descends c k Q (f c.kind) (g c.right.kind)
  rwa [← c.alike.kind]

theorem hasTokens {f : Bool → Parser γ} {g : Bool → Parser δ}
    (h : Descends c k Q (f c.left.hasTokens) (g c.left.hasTokens)) :
    Descends c k Q (MonadState.get >>= fun c => f c.hasTokens)
      (MonadState.get >>= fun c => g c.hasTokens) :=
  peekKind (f := fun kind => f (kind ≠ .eof)) (g := fun kind => g (kind ≠ .eof)) h

theorem position {f : Position → Parser γ} {g : Position → Parser δ}
    (h : ∀ p q, R.starts p q → Descends c k Q (f p) (g q)) :
    Descends c k Q (MonadState.get >>= fun c => f c.position)
      (MonadState.get >>= fun c => g c.position) :=
  peek (f := fun t => f t.span.start) (g := fun t => g t.span.start)
    (h _ _ c.alike.current.span.start)

theorem unexpected : Descends c k P (unexpected : Parser α) (Parser.unexpected : Parser β) := by
  refine peek (f := fun t => Parser.fail ⟨.unexpected t.value, t.span.start⟩)
    (g := fun t => Parser.fail ⟨.unexpected t.value, t.span.start⟩) (fail rfl ?_)
  exact ⟨congrArg Cause.unexpected c.alike.current.value, c.alike.current.span.start⟩

theorem unexpectedHere (message : String) : Descends c k P (unexpectedHere message : Parser α)
    (Parser.unexpectedHere message : Parser β) := by
  refine peek (f := fun t => Parser.fail ⟨.unexpectedHere t.value message, t.span.start⟩)
    (g := fun t => Parser.fail ⟨.unexpectedHere t.value message, t.span.start⟩) (fail rfl ?_)
  exact ⟨congrArg (Cause.unexpectedHere · message) c.alike.current.value,
    c.alike.current.span.start⟩

theorem spanFrom {start start' : Position} (h : R.starts start start') :
    Descends c 0 R.Spans (Parser.spanFrom start) (Parser.spanFrom start') :=
  ⟨.ok ⟨h, c.alike.previousEnd⟩ c.alike, Nat.le_refl _, _, .spanFrom start c.left, rfl⟩

theorem splitShift : Descends c 0 (fun _ _ => True) Parser.splitShift Parser.splitShift :=
  ⟨.ok trivial c.alike.splitShift, Nat.le_of_eq c.left.weight_splitShift, _, .splitShift c.left,
    c.left.endsAhead_splitShift⟩

theorem advance (h : c.kind ≠ .eof) :
    Descends c 1 (Token.Alike R) Parser.advance Parser.advance :=
  ⟨.ok c.alike.current c.alike.advance, Cursor.weight_advance_lt h, _, .advance c.left,
    Cursor.endsAhead_advance h⟩

theorem expect {kind : TokenKind} (h : kind ≠ .eof) :
    Descends c 1 (Token.Alike R) (Parser.expect kind) (Parser.expect kind) :=
  .peekKind (.ite (fun hkind => .advance (hkind ▸ h)) fun _ => .unexpected)

theorem expectOr {kind : TokenKind} (h : kind ≠ .eof) (message : String) :
    Descends c 1 (Token.Alike R) (Parser.expectOr kind message) (Parser.expectOr kind message) :=
  .peekKind (.ite (fun hkind => .advance (hkind ▸ h)) fun _ => .unexpectedHere message)

/-- Where a token is accepted, the cursors behind it are lighter. -/
theorem accept {kind : TokenKind} {f : Bool → Parser γ} {g : Bool → Parser δ} (h : kind ≠ .eof)
    (hyes : ∀ c' : Cursor.Pair R, c'.weight < c.weight → Descends c' 0 Q (f true) (g true))
    (hno : Descends c 0 Q (f false) (g false)) :
    Descends c 0 Q (Parser.accept kind >>= f) (Parser.accept kind >>= g) := by
  have hassoc : ∀ {ε : Type} (k : Bool → Parser ε), Parser.accept kind >>= k =
      Parser.peekKind >>= fun kind' =>
        if kind' = kind then Parser.advance >>= fun _ => k true else k false := by
    intro ε k
    rw [Parser.accept, bind_assoc]
    congr 1
    funext kind'
    split_ifs <;> simp
  rw [hassoc, hassoc]
  exact .peekKind (.ite (fun hkind => (advance (hkind ▸ h)).bindLoose fun _ _ _ => hyes)
    fun _ => hno)

/-- A parser may end by measuring what it has read. -/
theorem measured {start start' : Position} {r : Span → γ} {r' : Span → δ}
    (h : R.starts start start') (hr : ∀ s t, R.Spans s t → Q (r s) (r' t)) :
    Descends c 0 Q (do return r (← Parser.spanFrom start))
      (do return r' (← Parser.spanFrom start')) :=
  (spanFrom h).bind fun s t hst _ _ => .pure (hr s t hst)

end Descends

/-- A success at the cursor does not depend on what follows the tokens, if that is not an `else`. -/
def Closes (c : Cursor) (p : Parser α) : Prop :=
  ∀ ⦃a c'⦄, p c = .ok a c' → ∀ ⦃more : List Token⦄ ⦃last : EndToken⦄,
    (more.headD last.token).kind ≠ .word .elseWord →
    p (c.before more last) = .ok a (c'.before more last)

/-- Besides, a success of the first parser does not depend on what follows. -/
structure Completes (c : Cursor.Pair R) (k : Nat) (Q : α → β → Prop) (p : Parser α)
    (q : Parser β) : Prop extends Descends c k Q p q where
  closes : Closes c.left p

/-- A success that takes something starts before a token. -/
theorem Spends.isOpen {c c' : Cursor} {a : α} (h : Spends c.weight 1 (.ok a c')) : c.Open := by
  have hpos := c'.weight_pos
  have hle : c'.weight + 1 ≤ c.weight := h
  exact Cursor.open_of_weight (by omega)

/-- What goes on does not matter to a parser that is followed by one that takes something. -/
theorem Descends.finish {c : Cursor.Pair R} {k : Nat} {P : α → β → Prop} {Q : γ → δ → Prop}
    {p : Parser α} {q : Parser β} {f : α → Parser γ} {g : β → Parser δ} (hp : Descends c k P p q)
    (hf : ∀ a b, P a b → ∀ c' : Cursor.Pair R, c'.weight + k ≤ c.weight →
      Completes c' 1 Q (f a) (g b)) :
    Completes c 1 Q (p >>= f) (q >>= g) := by
  have hboth := hp.bindBy fun a b hab c' hc' => (hf a b hab c' hc').toDescends
  refine ⟨⟨hboth.outcomes, hboth.spends.trans (by omega) le_rfl, hboth.steady⟩, ?_⟩
  intro e c'' he more last hmore
  obtain ⟨a, c', ha, he⟩ := bind_ok.mp he
  obtain ⟨b, d, -, hab, hcd, hw⟩ := hp.beside ha
  obtain ⟨ds, hwalk, -⟩ := hp.steady
  rw [ha] at hwalk
  have hnext := hf a b hab ⟨c', d, hcd⟩ hw
  have htakes : Spends c'.weight 1 (f a c') := hnext.spends
  rw [he] at htakes
  exact bind_ok.mpr ⟨a, _, hwalk.run_before htakes.isOpen, hnext.closes he hmore⟩

namespace Completes

variable {c : Cursor.Pair R} {k : Nat} {P : α → β → Prop} {Q : γ → δ → Prop} {p p' : Parser α}
  {q q' : Parser β} {f : α → Parser γ} {g : β → Parser δ}

theorem below {d : Cursor} (hd : c.weight < d.weight) (h : Completes c k P p q) :
    Completes c k P p (below d q) := ⟨h.toDescends.below hd, h.closes⟩

theorem loosen (h : Completes c k P p q) : Completes c 0 P p q := ⟨h.toDescends.loosen, h.closes⟩

theorem pure {a : α} {b : β} (h : P a b) : Completes c 0 P (Pure.pure a) (Pure.pure b) := by
  refine ⟨.pure h, fun a c' ha more last _ => ?_⟩
  cases ha
  rfl

theorem spanFrom {start start' : Position} (h : R.starts start start') :
    Completes c 0 R.Spans (Parser.spanFrom start) (Parser.spanFrom start') := by
  refine ⟨.spanFrom h, fun s c' hs more last _ => ?_⟩
  cases hs
  rfl

/-- What always fails has no success. -/
theorem unexpectedHere (message : String) : Completes c k P
    (Parser.unexpectedHere message : Parser α) (Parser.unexpectedHere message : Parser β) := by
  refine ⟨.unexpectedHere message, fun a c' ha => ?_⟩
  cases ha

theorem unexpected :
    Completes c k P (Parser.unexpected : Parser α) (Parser.unexpected : Parser β) := by
  refine ⟨.unexpected, fun a c' ha => ?_⟩
  cases ha

theorem advance (h : c.kind ≠ .eof) :
    Completes c 1 (Token.Alike R) Parser.advance Parser.advance := by
  refine ⟨.advance h, fun t c' ht more last _ => ?_⟩
  cases ht
  have hopen := Cursor.open_of_kind h
  change EStateM.Result.ok (c.left.before more last).current (c.left.before more last).advance = _
  rw [Cursor.before_current hopen, Cursor.before_advance hopen]

theorem bind (hp : Completes c k P p q)
    (hf : ∀ a b, P a b → ∀ c' : Cursor.Pair R, c'.weight + k ≤ c.weight →
      Completes c' 0 Q (f a) (g b)) :
    Completes c k Q (p >>= f) (q >>= g) := by
  refine ⟨hp.toDescends.bindBy fun a b hab c' hc' => (hf a b hab c' hc').toDescends, ?_⟩
  intro e c'' he more last hmore
  obtain ⟨a, c', ha, he⟩ := bind_ok.mp he
  obtain ⟨b, d, -, hab, hcd, hw⟩ := hp.beside ha
  exact bind_ok.mpr ⟨a, _, hp.closes ha hmore, (hf a b hab ⟨c', d, hcd⟩ hw).closes he hmore⟩

/-- A parser may end by measuring what it has read. -/
theorem measured {start start' : Position} {r : Span → γ} {r' : Span → δ}
    (h : R.starts start start') (hr : ∀ s t, R.Spans s t → Q (r s) (r' t)) :
    Completes c 0 Q (do return r (← Parser.spanFrom start))
      (do return r' (← Parser.spanFrom start')) :=
  (spanFrom h).bind fun s t hst _ _ => .pure (hr s t hst)

theorem ite {b : Prop} [Decidable b] (hyes : b → Completes c k P p q)
    (hno : ¬ b → Completes c k P p' q') :
    Completes c k P (if b then p else p') (if b then q else q') := by
  split_ifs with h
  · exact hyes h
  · exact hno h

/-- The token is there if something is taken. -/
theorem peekKind {f : TokenKind → Parser γ} {g : TokenKind → Parser δ}
    (h : Completes c 1 Q (f c.kind) (g c.kind)) :
    Completes c 1 Q (Parser.peekKind >>= f) (Parser.peekKind >>= g) := by
  refine ⟨.peekKind h.toDescends, fun a c' ha more last hmore => ?_⟩
  have hrun : f c.kind c.left = .ok a c' := ha
  have htakes := h.spends
  rw [hrun] at htakes
  change f (c.left.before more last).kind _ = _
  rw [Cursor.before_kind htakes.isOpen]
  exact h.closes hrun hmore

theorem expect {kind : TokenKind} (h : kind ≠ .eof) :
    Completes c 1 (Token.Alike R) (Parser.expect kind) (Parser.expect kind) :=
  .peekKind (.ite (fun hkind => .advance (hkind ▸ h)) fun _ => .unexpected)

/-- An `else` is the one thing that is looked for behind the tokens that are taken. -/
theorem acceptElse {f : Bool → Parser γ} {g : Bool → Parser δ}
    (hyes : ∀ c' : Cursor.Pair R, c'.weight < c.weight → Completes c' 0 Q (f true) (g true))
    (hno : Completes c 0 Q (f false) (g false)) :
    Completes c 0 Q (Parser.accept (.word .elseWord) >>= f)
      (Parser.accept (.word .elseWord) >>= g) := by
  refine ⟨.accept (by decide) (fun c' hc' => (hyes c' hc').toDescends) hno.toDescends, ?_⟩
  intro a c' ha more last hmore
  by_cases hkind : c.left.kind = .word .elseWord
  · have hne : c.left.kind ≠ .eof := by
      rw [hkind]
      decide
    have hopen := Cursor.open_of_kind hne
    have hlighter := Cursor.weight_advance_lt hne
    rw [bind_of_ok (accept_of_kind hkind)] at ha
    rw [bind_of_ok (accept_of_kind ((Cursor.before_kind hopen).trans hkind)),
      Cursor.before_advance hopen]
    exact (hyes ⟨_, _, c.alike.advance⟩ hlighter).closes ha hmore
  · have hlong : (c.left.before more last).kind ≠ .word .elseWord := by
      by_cases hopen : c.left.Open
      · rwa [Cursor.before_kind hopen]
      · -- the cursor has come to the end, and looks at the first of the new tokens
        have hrest : c.left.rest = [] := not_not.mp hopen
        simpa [Cursor.kind, Cursor.current, Cursor.before, hrest] using hmore
    rw [bind_of_ok (accept_of_kind_ne hkind)] at ha
    rw [bind_of_ok (accept_of_kind_ne hlong)]
    exact hno.closes ha hmore

end Completes

/-- The parsers do the same, and a success takes something, side by side at all cursors lighter than
`w`. -/
def DescendsUnder (R : Correspondence) (w : Nat) (Q : α → β → Prop) (p : Parser α)
    (q : Parser β) : Prop :=
  ∀ c : Cursor.Pair R, c.weight < w → Descends c 1 Q p q

/-- The same, and a success does not depend on what follows. -/
def CompletesUnder (R : Correspondence) (w : Nat) (Q : α → β → Prop) (p : Parser α)
    (q : Parser β) : Prop :=
  ∀ c : Cursor.Pair R, c.weight < w → Completes c 1 Q p q

section

variable {v w : Nat} {Q : α → β → Prop} {p : Parser α} {q : Parser β} {c : Cursor}

theorem DescendsUnder.mono (h : DescendsUnder R w Q p q) (hvw : v ≤ w) :
    DescendsUnder R v Q p q := fun c hc => h c (hc.trans_le hvw)

theorem DescendsUnder.below (h : DescendsUnder R c.weight Q p q) :
    DescendsUnder R c.weight Q p (below c q) := fun c' hc' => (h c' hc').below hc'

theorem CompletesUnder.mono (h : CompletesUnder R w Q p q) (hvw : v ≤ w) :
    CompletesUnder R v Q p q := fun c hc => h c (hc.trans_le hvw)

theorem CompletesUnder.below (h : CompletesUnder R c.weight Q p q) :
    CompletesUnder R c.weight Q p (below c q) := fun c' hc' => (h c' hc').below hc'

end

end Parser

/-! ## Lists -/

namespace Parser

variable {α β : Type} {Q : α → β → Prop}

section

variable {c : Cursor.Pair R} {item : Parser α} {item' : Parser β} {loop : Parser (List α)}
  {loop' : Parser (List β)} (hitem : Descends c 1 Q item item')
  (hloop : ∀ c' : Cursor.Pair R, c'.weight < c.weight →
    Descends c' 0 (List.Forall₂ Q) loop loop')

include hitem hloop

theorem descends_separated : Descends c 1 (List.Forall₂ Q) (Round.separated item loop)
    (Round.separated item' loop') := by
  refine hitem.bindLighter fun a b hab c₁ h₁ => ?_
  refine .accept (by decide) (fun c₂ h₂ => ?_) (.pure (.cons hab .nil))
  exact (hloop c₂ (h₂.trans h₁)).bind fun _ _ has _ _ => .pure (.cons hab has)

theorem descends_closed (close : TokenKind) : Descends c 0 (List.Forall₂ Q)
    (Round.closed close item loop) (Round.closed close item' loop') :=
  .peekKind (.ite (fun _ => .pure .nil) fun _ => (descends_separated hitem hloop).loosen)

theorem descends_optional (close : TokenKind) : Descends c 0 (List.Forall₂ Q)
    (Round.commaOptional close item loop) (Round.commaOptional close item' loop') := by
  refine .peekKind (.ite (fun _ => .pure .nil) fun _ => ?_)
  refine hitem.bindLoose fun a b hab c₁ h₁ => ?_
  have hrest : ∀ c₂ : Cursor.Pair R, c₂.weight ≤ c₁.weight → Descends c₂ 0 (List.Forall₂ Q)
      (do return a :: (← loop)) (do return b :: (← loop')) := fun c₂ h₂ =>
    (hloop c₂ (h₂.trans_lt h₁)).bind fun _ _ has _ _ => .pure (.cons hab has)
  exact .accept (by decide) (fun c₂ h₂ => hrest c₂ h₂.le) (hrest c₁ le_rfl)

theorem descends_untilEnd : Descends c 0 (List.Forall₂ Q) (Round.untilEnd item loop)
    (Round.untilEnd item' loop') := by
  refine Descends.hasTokens (f := fun more => if more then _ else _)
    (g := fun more => if more then _ else _) (.ite (fun _ => ?_) fun _ => .pure .nil)
  refine hitem.bindLoose fun a b hab c₁ h₁ => ?_
  exact (hloop c₁ h₁).bind fun _ _ has _ _ => .pure (.cons hab has)

end

/-- A loop of rounds: if each round goes on at lighter cursors only, then what holds of a loop from
what holds of the rest of it holds of every loop with a budget of the weight. -/
theorem loop_induction {ι : Type} {J : Cursor.Pair R → Parser α → Parser β → Prop} {w : Nat}
    {f : Nat → ι → Parser α} {g : Nat → ι → Parser β}
    (hround : ∀ n m (c : Cursor.Pair R), c.weight < w → c.weight ≤ n + 1 → c.weight ≤ m + 1 →
      (∀ i (c' : Cursor.Pair R), c'.weight < c.weight → J c' (f n i) (g m i)) →
      ∀ i, J c (f (n + 1) i) (g (m + 1) i))
    {n m : Nat} {c : Cursor.Pair R} (hw : c.weight < w) (hn : c.weight ≤ n) (hm : c.weight ≤ m)
    (i : ι) : J c (f n i) (g m i) := by
  induction n generalizing m c i with
  | zero =>
    have hpos : 0 < c.weight := c.left.weight_pos
    omega
  | succ n ih =>
    cases m with
    | zero =>
      have hpos : 0 < c.weight := c.left.weight_pos
      omega
    | succ m =>
      refine hround n m c hw hn hm (fun j c' hc' => ih ?_ ?_ ?_ j) i <;> omega

theorem descends_loop {ι : Type} {k w : Nat} {f : Nat → ι → Parser α} {g : Nat → ι → Parser β}
    (hround : ∀ n m (c : Cursor.Pair R), c.weight < w → c.weight ≤ n + 1 → c.weight ≤ m + 1 →
      (∀ i (c' : Cursor.Pair R), c'.weight < c.weight → Descends c' k Q (f n i) (g m i)) →
      ∀ i, Descends c k Q (f (n + 1) i) (g (m + 1) i))
    {n m : Nat} {c : Cursor.Pair R} (hw : c.weight < w) (hn : c.weight ≤ n) (hm : c.weight ≤ m)
    (i : ι) : Descends c k Q (f n i) (g m i) :=
  loop_induction (J := fun c p q => Descends c k Q p q) hround hw hn hm i

section

variable {c : Cursor.Pair R} {w n m : Nat} {item : Parser α} {item' : Parser β}
  (hitem : DescendsUnder R w Q item item') (hw : c.weight < w) (hn : c.weight ≤ n)
  (hm : c.weight ≤ m)

include hitem hw hn hm

theorem descends_commaSeparated : Descends c 1 (List.Forall₂ Q) (commaSeparated item n)
    (commaSeparated item' m) :=
  descends_loop (f := fun n (_ : Unit) => commaSeparated item n)
    (g := fun m (_ : Unit) => commaSeparated item' m)
    (fun _ _ d hd _ _ hrest _ =>
      descends_separated (hitem d hd) fun c' hc' => (hrest () c' hc').loosen) hw hn hm ()

theorem descends_commaClosed (close : TokenKind) : Descends c 0 (List.Forall₂ Q)
    (commaClosed close item n) (commaClosed close item' m) :=
  descends_loop (f := fun n (_ : Unit) => commaClosed close item n)
    (g := fun m (_ : Unit) => commaClosed close item' m)
    (fun _ _ d hd _ _ hrest _ => descends_closed (hitem d hd) (hrest ()) close) hw hn hm ()

theorem descends_commaOptional (close : TokenKind) : Descends c 0 (List.Forall₂ Q)
    (commaOptional close item n) (commaOptional close item' m) :=
  descends_loop (f := fun n (_ : Unit) => commaOptional close item n)
    (g := fun m (_ : Unit) => commaOptional close item' m)
    (fun _ _ d hd _ _ hrest _ => descends_optional (hitem d hd) (hrest ()) close) hw hn hm ()

end

end Parser

/-! ## Type annotations -/

namespace Parse

open Quill.Parser

section

variable {c : Cursor.Pair R} {n m : Nat} {type type' : Parser TypeExpr}

theorem descends_optionalType {a b : TypeExpr} (hab : a.Alike R b) :
    Descends c 1 (TypeExpr.Alike R) (optionalType a) (optionalType b) :=
  (Descends.expect (by decide)).bindLighter fun _ _ _ _ _ =>
    .measured hab.span.start fun _ _ hs => .optional hab hs

theorem descends_typeHead (htype : DescendsUnder R c.weight (TypeExpr.Alike R) type type')
    (hn : c.weight ≤ n + 1) (hm : c.weight ≤ m + 1) :
    Descends c 1 (TypeExpr.Alike R) (typeHead .standard type n)
      (typeHead .standard type' m) := by
  refine .peekKind ?_
  cases Grammar.standard.typeStart c.kind with
  | none => exact .unexpectedHere _
  | some form =>
    cases form with
    | named =>
      refine (Descends.expect (by decide)).bindLighter fun t u htu _ _ => .pure ?_
      rw [htu.value]
      exact .named htu.span
    | array =>
      refine (Descends.expect (by decide)).bindLighter fun t u htu c₁ h₁ => ?_
      refine (htype c₁ h₁).loosen.bind fun _ _ hab _ _ => ?_
      exact (Descends.expect (by decide)).bindLoose fun _ _ _ _ _ =>
        .measured htu.span.start fun _ _ hs => .array hab hs
    | sum =>
      refine (Descends.expect (by decide)).bindLighter fun t u htu c₁ h₁ => ?_
      refine (descends_commaSeparated htype h₁ (by omega) (by omega)).bindLoose
        fun _ _ has _ _ => ?_
      refine Descends.splitShift.bind fun _ _ _ _ _ => ?_
      exact (Descends.expect (by decide)).bindLoose fun _ _ _ _ _ =>
        .measured htu.span.start fun _ _ hs => .sum has hs
    | function =>
      refine (Descends.expect (by decide)).bindLighter fun t u htu c₁ h₁ => ?_
      refine (descends_commaClosed htype h₁ (by omega) (by omega) _).bind fun _ _ has c₂ h₂ => ?_
      refine (Descends.expect (by decide)).bindLoose fun _ _ _ c₃ h₃ => ?_
      refine (Descends.expect (by decide)).bindLoose fun _ _ _ c₄ h₄ => ?_
      exact (htype c₄ (by omega)).bindLoose fun _ _ hab _ _ =>
        .measured htu.span.start fun _ _ hs => .function has hab hs

theorem descends_typeTailRound (power : Power) {loop loop' : TypeExpr → Parser TypeExpr}
    (hloop : ∀ {a b : TypeExpr}, a.Alike R b → ∀ c' : Cursor.Pair R, c'.weight < c.weight →
      Descends c' 0 (TypeExpr.Alike R) (loop a) (loop' b))
    {a b : TypeExpr} (hab : a.Alike R b) : Descends c 0 (TypeExpr.Alike R)
      (Round.typeTail .standard power loop a) (Round.typeTail .standard power loop' b) := by
  refine .peekKind ?_
  cases Grammar.standard.typeFollow c.kind with
  | none => exact .pure hab
  | some follow =>
    obtain ⟨p, ⟨⟩⟩ := follow
    refine .ite (fun _ => .pure hab) fun _ => ?_
    exact (descends_optionalType hab).bindLoose fun _ _ => hloop

theorem descends_typeTail (power : Power) (hn : c.weight ≤ n) (hm : c.weight ≤ m)
    {a b : TypeExpr} (hab : a.Alike R b) : Descends c 0 (TypeExpr.Alike R)
      (typeTail .standard power n a) (typeTail .standard power m b) :=
  -- the loops go on with annotations that are alike
  descends_loop (ι := { x : TypeExpr × TypeExpr // x.1.Alike R x.2 })
    (f := fun n x => typeTail .standard power n x.1.1)
    (g := fun m x => typeTail .standard power m x.1.2)
    (fun _ _ _ _ _ _ hrest x =>
      descends_typeTailRound power (fun {a b} hab => hrest ⟨(a, b), hab⟩) x.2)
    (Nat.lt_succ_self _) hn hm ⟨(a, b), hab⟩

theorem descends_typeRound (htype : DescendsUnder R c.weight (TypeExpr.Alike R) type type')
    (power : Power) (hn : c.weight ≤ n + 1) (hm : c.weight ≤ m + 1) :
    Descends c 1 (TypeExpr.Alike R) (typeHead .standard type n >>= typeTail .standard power n)
      (typeHead .standard type' m >>= typeTail .standard power m) :=
  (descends_typeHead htype hn hm).bindLighter fun _ _ hab _ _ =>
    descends_typeTail power (by omega) (by omega) hab

theorem descends_typeExpr (power : Power) (hn : c.weight ≤ n) (hm : c.weight ≤ m) :
    Descends c 1 (TypeExpr.Alike R) (typeExpr .standard n power) (typeExpr .standard m power) :=
  descends_loop
    (fun _ _ _ _ hn hm hrest power => descends_typeRound (hrest .weakest) power hn hm)
    (Nat.lt_succ_self _) hn hm power

end

/-! ## Expressions -/

theorem descends_primary {c : Cursor.Pair R} :
    Descends c 1 (Expr.Alike R) primary primary := by
  refine .peek ?_
  have hkind : c.kind = c.left.current.kind := rfl
  have hcurrent := c.alike.current
  generalize c.left.current = t at hkind hcurrent
  generalize c.right.current = u at hcurrent
  obtain ⟨kind, value, s⟩ := t
  obtain ⟨kind', value', s'⟩ := u
  obtain ⟨rfl, rfl, hs, -⟩ := hcurrent
  -- the tokens now differ in their spans only, so both sides match on one kind and one value
  have hread : c.kind ≠ .eof → ∀ {e e' : Expr}, e.Alike R e' → Descends c 1 (Expr.Alike R)
      (do let _ ← advance; return e) (do let _ ← advance; return e') :=
    fun h _ _ he => (Descends.advance h).bindLighter fun _ _ _ _ _ => .pure he
  have hnumber : Descends c 1 (Expr.Alike R) (fail ⟨.badNumber value, s.start⟩)
      (fail ⟨.badNumber value, s'.start⟩) := .fail rfl ⟨rfl, hs.start⟩
  dsimp only at hkind ⊢
  split
  · split
    · exact hread (by simp [hkind]) (.int hs)
    · exact hnumber
  · split
    · exact hread (by simp [hkind]) (.float hs)
    · exact hnumber
  · exact hread (by simp [hkind]) (.string hs)
  · exact hread (by simp [hkind]) (.bool hs)
  · exact hread (by simp [hkind]) (.bool hs)
  · exact hread (by simp [hkind]) (.symbol hs)
  · exact .unexpected

section

variable {c : Cursor.Pair R} {n m : Nat} {expr expr' : Power → Parser Expr}
  {type type' : Parser TypeExpr}
  (hexpr : ∀ power, DescendsUnder R c.weight (Expr.Alike R) (expr power) (expr' power))

include hexpr

theorem descends_unary (h : c.kind ≠ .eof) :
    Descends c 1 (Expr.Alike R) (unary expr) (unary expr') := by
  refine (Descends.advance h).bindLighter fun t u htu c₁ h₁ => ?_
  rw [htu.kind]
  cases UnaryOp.ofKind? u.kind with
  | none => exact .fail rfl ⟨congrArg Cause.unexpected htu.value, htu.span.start⟩
  | some op =>
    exact (hexpr _ c₁ h₁).bindLoose fun _ _ hab _ _ =>
      .pure (.unary hab ⟨htu.span.start, hab.span.stop⟩)

theorem descends_array (htype : DescendsUnder R c.weight (TypeExpr.Alike R) type type')
    (hn : c.weight ≤ n + 1) (hm : c.weight ≤ m + 1) :
    Descends c 1 (Expr.Alike R) (array expr type n) (array expr' type' m) := by
  refine (Descends.expect (by decide)).bindLighter fun t u htu c₁ h₁ => ?_
  refine .accept (by decide) (fun c₂ h₂ => ?_) ?_
  · exact (htype c₂ (h₂.trans h₁)).bindLoose fun _ _ hab _ _ =>
      .measured htu.span.start fun _ _ hs => .emptyArray hab hs
  · refine (descends_commaSeparated (hexpr _) h₁ (by omega) (by omega)).bindLoose
      fun _ _ has _ _ => ?_
    exact (Descends.expect (by decide)).bindLoose fun _ _ _ _ _ =>
      .measured htu.span.start fun _ _ hs => .array has hs

theorem descends_exprHead (htype : DescendsUnder R c.weight (TypeExpr.Alike R) type type')
    (hn : c.weight ≤ n + 1) (hm : c.weight ≤ m + 1) :
    Descends c 1 (Expr.Alike R) (exprHead .standard expr type n)
      (exprHead .standard expr' type' m) := by
  refine .peekKind ?_
  cases hform : Grammar.standard.exprStart c.kind with
  | none => exact .unexpected
  | some form =>
    cases form with
    | primary => exact descends_primary
    | unary => exact descends_unary hexpr (kind_ne_eof_of_some hform rfl)
    | group =>
      refine (Descends.expect (by decide)).bindLighter fun _ _ _ c₁ h₁ => ?_
      refine (hexpr _ c₁ h₁).bindLoose fun _ _ hab _ _ => ?_
      exact (Descends.expect (by decide)).bindLoose fun _ _ _ _ _ => .pure hab
    | array => exact descends_array hexpr htype hn hm
    | absent =>
      refine (Descends.expect (by decide)).bindLighter fun t u htu c₁ h₁ => ?_
      exact (htype c₁ h₁).bindLoose fun _ _ hab _ _ =>
        .measured htu.span.start fun _ _ hs => .absent hab hs

/-- A continuation of two expressions that are alike. -/
theorem descends_continuation (h : c.kind ≠ .eof) (hn : c.weight ≤ n + 1) (hm : c.weight ≤ m + 1)
    {a b : Expr} (hab : a.Alike R b) (power : Power) (form : ExprFollow) :
    Descends c 1 (Expr.Alike R) (continuation expr n a power form)
      (continuation expr' m b power form) := by
  cases form with
  | binary =>
    refine (Descends.advance h).bindLighter fun t u htu c₁ h₁ => ?_
    rw [htu.kind]
    cases BinaryOp.ofKind? u.kind with
    | none => exact .fail rfl ⟨congrArg Cause.unexpected htu.value, htu.span.start⟩
    | some op =>
      exact (hexpr _ c₁ h₁).bindLoose fun _ _ hab' _ _ =>
        .pure (.binary hab hab' ⟨hab.span.start, hab'.span.stop⟩)
  | conditional =>
    refine (Descends.expect (by decide)).bindLighter fun _ _ _ c₁ h₁ => ?_
    refine (hexpr _ c₁ h₁).bindLoose fun _ _ hyes c₂ h₂ => ?_
    refine (Descends.expect (by decide)).bindLoose fun _ _ _ c₃ h₃ => ?_
    exact (hexpr _ c₃ (by omega)).bindLoose fun _ _ hno _ _ =>
      .pure (.conditional hab hyes hno ⟨hab.span.start, hno.span.stop⟩)
  | call =>
    refine (Descends.expect (by decide)).bindLighter fun _ _ _ c₁ h₁ => ?_
    refine (descends_commaClosed (hexpr _) h₁ (by omega) (by omega) _).bind
      fun _ _ has _ _ => ?_
    exact (Descends.expect (by decide)).bindLoose fun _ _ _ _ _ =>
      .measured hab.span.start fun _ _ hs => .call hab has hs
  | subscript =>
    refine (Descends.expect (by decide)).bindLighter fun _ _ _ c₁ h₁ => ?_
    refine (hexpr _ c₁ h₁).bindLoose fun _ _ hindex _ _ => ?_
    exact (Descends.expect (by decide)).bindLoose fun _ _ _ _ _ =>
      .measured hab.span.start fun _ _ hs => .subscript hab hindex hs
  | member =>
    refine (Descends.advance h).bindLighter fun t u htu _ _ => ?_
    refine (Descends.expectOr (by decide) _).bindLoose fun x y hxy _ _ => .pure ?_
    rw [htu.kind, hxy.value]
    exact .member hab ⟨hab.span.start, hxy.span.stop⟩

theorem descends_exprTailRound (power : Power) (hn : c.weight ≤ n + 1) (hm : c.weight ≤ m + 1)
    {loop loop' : Expr → Parser Expr}
    (hloop : ∀ {a b : Expr}, a.Alike R b → ∀ c' : Cursor.Pair R, c'.weight < c.weight →
      Descends c' 0 (Expr.Alike R) (loop a) (loop' b))
    {a b : Expr} (hab : a.Alike R b) : Descends c 0 (Expr.Alike R)
      (Round.exprTail .standard expr power n loop a)
      (Round.exprTail .standard expr' power m loop' b) := by
  refine .peekKind ?_
  cases hfollow : Grammar.standard.exprFollow c.kind with
  | none => exact .pure hab
  | some follow =>
    obtain ⟨p, form⟩ := follow
    have hkind : c.kind ≠ .eof := kind_ne_eof_of_some hfollow rfl
    refine .ite (fun _ => .pure hab) fun _ => ?_
    exact (descends_continuation hexpr hkind hn hm hab p form).bindLoose fun _ _ => hloop

end

section

variable {c : Cursor.Pair R} {n m : Nat} {expr expr' : Power → Parser Expr}
  {type type' : Parser TypeExpr}

theorem descends_exprTail {w : Nat}
    (hexpr : ∀ power, DescendsUnder R w (Expr.Alike R) (expr power) (expr' power))
    (power : Power) (hw : c.weight < w) (hn : c.weight ≤ n) (hm : c.weight ≤ m) {a b : Expr}
    (hab : a.Alike R b) : Descends c 0 (Expr.Alike R) (exprTail .standard expr power n a)
      (exprTail .standard expr' power m b) :=
  descends_loop (ι := { x : Expr × Expr // x.1.Alike R x.2 })
    (f := fun n x => exprTail .standard expr power n x.1.1)
    (g := fun m x => exprTail .standard expr' power m x.1.2)
    (fun _ _ _ hd hn hm hrest x => descends_exprTailRound (fun power => (hexpr power).mono hd.le)
      power hn hm (fun {a b} hab => hrest ⟨(a, b), hab⟩) x.2) hw hn hm ⟨(a, b), hab⟩

theorem descends_exprRound
    (hexpr : ∀ power, DescendsUnder R c.weight (Expr.Alike R) (expr power) (expr' power))
    (htype : DescendsUnder R c.weight (TypeExpr.Alike R) type type') (power : Power)
    (hn : c.weight ≤ n + 1) (hm : c.weight ≤ m + 1) :
    Descends c 1 (Expr.Alike R)
      (exprHead .standard expr type n >>= exprTail .standard expr power n)
      (exprHead .standard expr' type' m >>= exprTail .standard expr' power m) :=
  (descends_exprHead hexpr htype hn hm).bindLighter fun _ _ hab _ h₁ =>
    descends_exprTail hexpr power h₁ (by omega) (by omega) hab

theorem descends_expr (power : Power) (hn : c.weight ≤ n) (hm : c.weight ≤ m) :
    Descends c 1 (Expr.Alike R) (Parse.expr .standard n power) (Parse.expr .standard m power) :=
  descends_loop
    (fun _ _ _ _ hn hm hrest power => descends_exprRound hrest
      (fun _ hlt => descends_typeExpr .weakest (by omega) (by omega)) power hn hm)
    (Nat.lt_succ_self _) hn hm power

end

/-! ## Statements -/

section

variable {c : Cursor.Pair R} {w n m : Nat} {stmt stmt' : Parser Stmt}
  {loop loop' : Parser (List Stmt)}

theorem descends_blockBodyRound (hstmt : Descends c 1 (Stmt.Alike R) stmt stmt')
    (hloop : ∀ c' : Cursor.Pair R, c'.weight < c.weight →
      Descends c' 0 (List.Forall₂ (Stmt.Alike R)) loop loop') :
    Descends c 0 (List.Forall₂ (Stmt.Alike R)) (Round.blockBody stmt loop)
      (Round.blockBody stmt' loop') := by
  refine .peekKind (.ite (fun _ => .pure .nil) fun _ => ?_)
  refine Descends.hasTokens (f := fun more => if more then _ else _)
    (g := fun more => if more then _ else _) (.ite (fun _ => ?_) fun _ => .unexpectedHere _)
  refine hstmt.bindLoose fun _ _ hab c₁ h₁ => ?_
  exact (hloop c₁ h₁).bind fun _ _ has _ _ => .pure (.cons hab has)

theorem descends_blockBody (hstmt : DescendsUnder R w (Stmt.Alike R) stmt stmt')
    (hw : c.weight < w) (hn : c.weight ≤ n) (hm : c.weight ≤ m) :
    Descends c 0 (List.Forall₂ (Stmt.Alike R)) (blockBody stmt n) (blockBody stmt' m) :=
  descends_loop (f := fun n (_ : Unit) => blockBody stmt n)
    (g := fun m (_ : Unit) => blockBody stmt' m)
    (fun _ _ d hd _ _ hrest _ => descends_blockBodyRound (hstmt d hd) (hrest ())) hw hn hm ()

/-- The brace that opens a block stands before its statements, and the one that closes it is the
last token that is looked at. -/
theorem completes_block (hstmt : DescendsUnder R c.weight (Stmt.Alike R) stmt stmt')
    (hn : c.weight ≤ n + 1) (hm : c.weight ≤ m + 1) :
    Completes c 1 (Block.Alike R) (block stmt n) (block stmt' m) := by
  refine (Descends.expect (by decide)).finish fun t u htu c₁ h₁ => ?_
  refine (descends_blockBody hstmt h₁ (by omega) (by omega)).finish fun _ _ has _ _ => ?_
  exact (Completes.expect (by decide)).bind fun _ _ _ _ _ =>
    .measured htu.span.start fun _ _ hs => .mk has hs

end

section

variable {c : Cursor.Pair R} {n m : Nat} {type type' : Parser TypeExpr}
  {block block' : Parser Block}
  (htype : DescendsUnder R c.weight (TypeExpr.Alike R) type type')

include htype

theorem descends_binding :
    Descends c 1 (Binding.Alike R) (binding type) (binding type') := by
  refine (Descends.expect (by decide)).bindLighter fun x y hxy c₁ h₁ => ?_
  refine (Descends.expect (by decide)).bindLoose fun _ _ _ c₂ h₂ => ?_
  exact (htype c₂ (h₂.trans h₁)).bindLoose fun _ _ hab _ _ =>
    .measured hxy.span.start fun _ _ hs => ⟨hxy.value, hab, hs⟩

theorem descendsUnder_binding :
    DescendsUnder R c.weight (Binding.Alike R) (binding type) (binding type') :=
  fun _ hd => descends_binding (htype.mono hd.le)

theorem completes_struct (h : c.kind ≠ .eof) (hn : c.weight ≤ n + 1) (hm : c.weight ≤ m + 1) :
    Completes c 1 (Stmt.Alike R) (struct type n) (struct type' m) := by
  refine (Descends.advance h).finish fun t u htu c₁ h₁ => ?_
  refine (Descends.expect (by decide)).finish fun x y hxy c₂ h₂ => ?_
  refine (Descends.expect (by decide)).finish fun _ _ _ c₃ h₃ => ?_
  refine (descends_commaOptional (descendsUnder_binding htype) (by omega) (by omega) (by omega)
    _).finish fun _ _ has _ _ => ?_
  rw [hxy.value]
  exact (Completes.expect (by decide)).bind fun _ _ _ _ _ =>
    .measured htu.span.start fun _ _ hs => .struct has hs

theorem completes_function (hblock : CompletesUnder R c.weight (Block.Alike R) block block')
    (h : c.kind ≠ .eof) (hn : c.weight ≤ n + 1) (hm : c.weight ≤ m + 1) :
    Completes c 1 (Stmt.Alike R) (function type block n) (function type' block' m) := by
  have hresult : ∀ d : Cursor.Pair R, d.weight < c.weight →
      Descends d 0 (Option.Rel (TypeExpr.Alike R)) (resultType type) (resultType type') :=
    fun d hd => .accept (by decide)
      (fun e he => (htype e (he.trans hd)).bindLoose fun _ _ hab _ _ => .pure (.some hab))
      (.pure .none)
  refine (Descends.advance h).finish fun t u htu c₁ h₁ => ?_
  refine (Descends.expect (by decide)).finish fun x y hxy c₂ h₂ => ?_
  refine (Descends.expect (by decide)).finish fun _ _ _ c₃ h₃ => ?_
  refine (descends_commaClosed (descendsUnder_binding htype) (by omega) (by omega) (by omega)
    _).finish fun _ _ has c₄ h₄ => ?_
  refine (Descends.expect (by decide)).finish fun _ _ _ c₅ h₅ => ?_
  refine (hresult c₅ (by omega)).finish fun _ _ hr c₆ h₆ => ?_
  rw [hxy.value]
  exact (hblock c₆ (by omega)).bind fun _ _ hb _ _ =>
    .measured htu.span.start fun _ _ hs => .function has hr hb hs

end

section

variable {c : Cursor.Pair R} {expr expr' : Parser Expr} {block block' : Parser Block}

theorem completes_declare (hexpr : DescendsUnder R c.weight (Expr.Alike R) expr expr')
    (h : c.kind ≠ .eof) : Completes c 1 (Stmt.Alike R) (declare expr) (declare expr') := by
  have hmark : ∀ d : Cursor.Pair R, Descends d 0 (· = ·) bindingMark bindingMark := by
    refine fun d => .peekKind (.ite (fun hkind => ?_) fun _ => .unexpectedHere _)
    refine (Descends.advance fun heof => ?_).bindLoose fun _ _ _ _ _ => .pure rfl
    rw [heof] at hkind
    exact absurd hkind (by decide)
  refine (Descends.advance h).finish fun t u htu c₁ h₁ => ?_
  refine (Descends.expectOr (by decide) _).finish fun x y hxy c₂ h₂ => ?_
  refine (hmark c₂).finish fun byReference byReference' hmarks c₃ h₃ => ?_
  refine (hexpr c₃ (by omega)).finish fun _ _ hab _ _ => ?_
  rw [htu.kind, hxy.value, hmarks]
  exact (Completes.expect (by decide)).bind fun _ _ _ _ _ =>
    .measured htu.span.start fun _ _ hs => .declare hab hs

theorem completes_breakLoop (h : c.kind ≠ .eof) :
    Completes c 1 (Stmt.Alike R) breakLoop breakLoop := by
  refine (Descends.advance h).finish fun t u htu _ _ => ?_
  exact (Completes.expect (by decide)).bind fun _ _ _ _ _ =>
    .measured htu.span.start fun _ _ hs => .breakLoop hs

theorem completes_giveBack (hexpr : DescendsUnder R c.weight (Expr.Alike R) expr expr')
    (h : c.kind ≠ .eof) : Completes c 1 (Stmt.Alike R) (giveBack expr) (giveBack expr') := by
  have hvalue : ∀ d : Cursor.Pair R, d.weight < c.weight →
      Descends d 0 (Option.Rel (Expr.Alike R)) (resultValue expr) (resultValue expr') :=
    fun d hd => .peekKind (.ite (fun _ => .pure .none) fun _ =>
      (hexpr d hd).bindLoose fun _ _ hab _ _ => .pure (.some hab))
  refine (Descends.advance h).finish fun t u htu c₁ h₁ => ?_
  refine (hvalue c₁ h₁).finish fun _ _ hab _ _ => ?_
  exact (Completes.expect (by decide)).bind fun _ _ _ _ _ =>
    .measured htu.span.start fun _ _ hs => .giveBack hab hs

/-- A statement may start with an expression, so this one is parsed at the cursor itself. What may
follow it is decided by the token behind it, and whether it may stand alone by its form. -/
theorem completes_plain (hexpr : DescendsUnder R (c.weight + 1) (Expr.Alike R) expr expr') :
    Completes c 1 (Stmt.Alike R) (plain expr) (plain expr') := by
  have hassign : ∀ (d : Cursor.Pair R) {a b : Expr}, a.Alike R b → d.weight < c.weight →
      d.kind ≠ .eof → Completes d 1 (Stmt.Alike R) (assign expr a) (assign expr' b) := by
    intro d a b hab hd hkind
    refine (Descends.advance hkind).finish fun t u htu d₁ h₁ => ?_
    refine (hexpr d₁ (by omega)).finish fun _ _ hvalue _ _ => ?_
    rw [htu.kind]
    exact (Completes.expect (by decide)).bind fun _ _ _ _ _ =>
      .measured hab.span.start fun _ _ hs => .assign hab hvalue hs
  have hupdate : ∀ (d : Cursor.Pair R) {a b : Expr}, a.Alike R b → d.kind ≠ .eof →
      Completes d 1 (Stmt.Alike R) (update a) (update b) := by
    intro d a b hab hkind
    refine (Descends.advance hkind).finish fun t u htu _ _ => ?_
    rw [htu.kind]
    refine (Completes.expect (by decide)).bind fun _ _ _ _ _ => ?_
    exact (Completes.spanFrom hab.span.start).bind fun _ _ hs _ _ =>
      .ite (fun _ => .pure (.increment hab hs)) fun _ => .pure (.decrement hab hs)
  have hperform : ∀ (d : Cursor.Pair R) {a b : Expr}, a.Alike R b → d.kind ≠ .eof →
      Completes d 1 (Stmt.Alike R) (perform a) (perform b) := by
    intro d a b hab hkind
    unfold perform
    rw [hab.isCall]
    refine .ite (fun _ => ?_) fun _ => .unexpectedHere _
    exact (Completes.advance hkind).bind fun _ _ _ _ _ =>
      .measured hab.span.start fun _ _ hs => .perform hab hs
  refine (hexpr c (Nat.lt_succ_self _)).finish fun _ _ hab c₁ h₁ => .peekKind ?_
  have hkind : c₁.kind = c₁.left.kind := rfl
  split
  · exact hassign c₁ hab h₁ (by simp [*])
  · exact hassign c₁ hab h₁ (by simp [*])
  · exact hupdate c₁ hab (by simp [*])
  · exact hupdate c₁ hab (by simp [*])
  · exact hperform c₁ hab (by simp [*])
  · exact .unexpected

theorem completes_alternativeRound
    (hexpr : DescendsUnder R c.weight (Expr.Alike R) expr expr')
    (hblock : CompletesUnder R c.weight (Block.Alike R) block block')
    {loop loop' : Parser Alternative}
    (hloop : ∀ c' : Cursor.Pair R, c'.weight < c.weight →
      Completes c' 0 (Alternative.Alike R) loop loop') :
    Completes c 0 (Alternative.Alike R) (Round.alternative expr block loop)
      (Round.alternative expr' block' loop') := by
  refine .acceptElse (fun c₁ h₁ => .loosen (.peekKind (.ite (fun _ => ?_) fun _ => ?_)))
    (.pure .nothing)
  · refine (Descends.expect (by decide)).finish fun t u htu c₂ h₂ => ?_
    refine (hexpr c₂ (by omega)).finish fun _ _ htest c₃ h₃ => ?_
    refine (hblock c₃ (by omega)).bind fun _ _ hbody c₄ h₄ => ?_
    exact (hloop c₄ (by omega)).bind fun _ _ hrest _ _ =>
      .measured htu.span.start fun _ _ hs => .elseIf htest hbody hrest hs
  · exact (hblock c₁ h₁).bind fun _ _ hbody _ _ => .pure (.otherwise hbody)

theorem completes_alternative {w n m : Nat}
    (hexpr : DescendsUnder R w (Expr.Alike R) expr expr')
    (hblock : CompletesUnder R w (Block.Alike R) block block') (hw : c.weight < w)
    (hn : c.weight ≤ n) (hm : c.weight ≤ m) :
    Completes c 0 (Alternative.Alike R) (alternative expr block n)
      (alternative expr' block' m) :=
  loop_induction (J := fun c p q => Completes c 0 (Alternative.Alike R) p q)
    (f := fun n (_ : Unit) => alternative expr block n)
    (g := fun m (_ : Unit) => alternative expr' block' m)
    (fun _ _ _ hd _ _ hrest _ =>
      completes_alternativeRound (hexpr.mono hd.le) (hblock.mono hd.le) (hrest ())) hw hn hm ()

theorem completes_branch {n m : Nat} (hexpr : DescendsUnder R c.weight (Expr.Alike R) expr expr')
    (hblock : CompletesUnder R c.weight (Block.Alike R) block block') (hn : c.weight ≤ n + 1)
    (hm : c.weight ≤ m + 1) :
    Completes c 1 (Stmt.Alike R) (branch expr block n) (branch expr' block' m) := by
  refine (Descends.expect (by decide)).finish fun t u htu c₁ h₁ => ?_
  refine (hexpr c₁ h₁).finish fun _ _ htest c₂ h₂ => ?_
  refine (hblock c₂ (by omega)).bind fun _ _ hbody c₃ h₃ => ?_
  exact (completes_alternative hexpr hblock (by omega) (by omega) (by omega)).bind
    fun _ _ hrest _ _ => .measured htu.span.start fun _ _ hs => .branch htest hbody hrest hs

/-- A loop over a test or a count. -/
theorem completes_headed (hexpr : DescendsUnder R c.weight (Expr.Alike R) expr expr')
    (hblock : CompletesUnder R c.weight (Block.Alike R) block block') (h : c.kind ≠ .eof)
    {r : Expr → Block → Span → Stmt}
    (hr : ∀ {e e' b b' s s'}, e.Alike R e' → b.Alike R b' → R.Spans s s' →
      (r e b s).Alike R (r e' b' s')) :
    Completes c 1 (Stmt.Alike R)
      (do
        let token ← advance
        let test ← expr
        let body ← block
        return r test body (← spanFrom token.span.start))
      (do
        let token ← advance
        let test ← expr'
        let body ← block'
        return r test body (← spanFrom token.span.start)) := by
  refine (Descends.advance h).finish fun t u htu c₁ h₁ => ?_
  refine (hexpr c₁ h₁).finish fun _ _ htest c₂ h₂ => ?_
  exact (hblock c₂ (by omega)).bind fun _ _ hbody _ _ =>
    .measured htu.span.start fun _ _ hs => hr htest hbody hs

theorem completes_forLoop (hexpr : DescendsUnder R c.weight (Expr.Alike R) expr expr')
    (hblock : CompletesUnder R c.weight (Block.Alike R) block block') (h : c.kind ≠ .eof) :
    Completes c 1 (Stmt.Alike R) (forLoop expr block) (forLoop expr' block') := by
  refine (Descends.advance h).finish fun t u htu c₁ h₁ => ?_
  refine (Descends.expectOr (by decide) _).finish fun x y hxy c₂ h₂ => ?_
  refine (Descends.expect (by decide)).finish fun _ _ _ c₃ h₃ => ?_
  refine (hexpr c₃ (by omega)).finish fun _ _ hfirst c₄ h₄ => .peekKind ?_
  rw [hxy.value]
  cases hop : RangeOp.ofKind? c₄.kind with
  | none =>
    exact (hblock c₄ (by omega)).bind fun _ _ hbody _ _ =>
      .measured htu.span.start fun _ _ hs => .eachLoop hfirst hbody hs
  | some op =>
    refine (Descends.advance (kind_ne_eof_of_some hop rfl)).finish fun _ _ _ c₅ h₅ => ?_
    refine (hexpr c₅ (by omega)).finish fun _ _ hhigh c₆ h₆ => ?_
    exact (hblock c₆ (by omega)).bind fun _ _ hbody _ _ =>
      .measured htu.span.start fun _ _ hs => .rangeLoop hfirst hhigh hbody hs

theorem completes_stmtRound {n m : Nat} {type type' : Parser TypeExpr}
    (hexpr : DescendsUnder R (c.weight + 1) (Expr.Alike R) expr expr')
    (htype : DescendsUnder R c.weight (TypeExpr.Alike R) type type')
    (hblock : CompletesUnder R c.weight (Block.Alike R) block block') (hn : c.weight ≤ n + 1)
    (hm : c.weight ≤ m + 1) : Completes c 1 (Stmt.Alike R)
      (Round.stmt .standard expr type block n) (Round.stmt .standard expr' type' block' m) := by
  have hinner : DescendsUnder R c.weight (Expr.Alike R) expr expr' := hexpr.mono (Nat.le_succ _)
  refine .peekKind ?_
  cases hform : Grammar.standard.stmt c.kind with
  | none => exact completes_plain hexpr
  | some form =>
    have hkind : c.kind ≠ .eof := kind_ne_eof_of_some hform rfl
    cases form with
    | declare => exact completes_declare hinner hkind
    | struct => exact completes_struct htype hkind hn hm
    | function => exact completes_function htype hblock hkind hn hm
    | breakLoop => exact completes_breakLoop hkind
    | giveBack => exact completes_giveBack hinner hkind
    | branch => exact completes_branch hinner hblock hn hm
    | whileLoop => exact completes_headed hinner hblock hkind .whileLoop
    | repeatLoop => exact completes_headed hinner hblock hkind .repeatLoop
    | forLoop => exact completes_forLoop hinner hblock hkind

end

/-- A statement needs one unit more than its weight, for an expression that it starts with. -/
theorem completes_stmt {c : Cursor.Pair R} {n m : Nat} (hn : c.weight < n) (hm : c.weight < m) :
    Completes c 1 (Stmt.Alike R) (stmt .standard n) (stmt .standard m) := by
  obtain ⟨n, rfl⟩ := Nat.exists_eq_add_of_lt hn
  obtain ⟨m, rfl⟩ := Nat.exists_eq_add_of_lt hm
  refine loop_induction (J := fun c p q => Completes c 1 (Stmt.Alike R) p q)
    (f := fun n (_ : Unit) => stmt .standard (n + 1))
    (g := fun m (_ : Unit) => stmt .standard (m + 1)) (fun n m d _ hn hm hrest _ => ?_)
    (Nat.lt_succ_self _) (by omega) (by omega) ()
  refine completes_stmtRound (fun e he => descends_expr .weakest (by omega) (by omega))
    (fun e he => descends_typeExpr .weakest (by omega) (by omega)) (fun e he => ?_) (by omega)
    (by omega)
  exact completes_block (fun e' he' => (hrest () e' (he'.trans he)).toDescends) (by omega)
    (by omega)

theorem descends_stmts {c : Cursor.Pair R} {w n m k l : Nat} (hn : w ≤ n) (hm : w ≤ m)
    (hw : c.weight < w) (hk : c.weight ≤ k) (hl : c.weight ≤ l) :
    Descends c 0 (List.Forall₂ (Stmt.Alike R)) (untilEnd (stmt .standard n) k)
      (untilEnd (stmt .standard m) l) :=
  descends_loop (f := fun k (_ : Unit) => untilEnd (stmt .standard n) k)
    (g := fun l (_ : Unit) => untilEnd (stmt .standard m) l)
    (fun _ _ _ hd _ _ hrest _ =>
      descends_untilEnd (completes_stmt (by omega) (by omega)).toDescends (hrest ()))
    hw hk hl ()

theorem descends_program {c : Cursor.Pair R} {n m : Nat} (hn : c.weight < n) (hm : c.weight < m) :
    Descends c 0 (Block.WholeAlike R) (program .standard n) (program .standard m) := by
  refine Descends.position (f := fun start => do
    let body ← untilEnd (stmt .standard n) n
    return Block.mk body ⟨start, (← get).position⟩) (g := fun start => do
    let body ← untilEnd (stmt .standard m) m
    return Block.mk body ⟨start, (← get).position⟩) fun p q hstart => ?_
  refine (descends_stmts hn hm (Nat.lt_succ_self _) hn.le hm.le).bind fun as bs has c' _ => ?_
  exact Descends.position (f := fun stop => Pure.pure (Block.mk as ⟨p, stop⟩))
    (g := fun stop => Pure.pure (Block.mk bs ⟨q, stop⟩))
    fun _ _ hstop => .pure ⟨has, hstart, hstop⟩

end Parse

end Quill
