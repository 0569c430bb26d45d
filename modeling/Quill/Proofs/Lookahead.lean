import Quill.Proofs.Descent

/-!
# Statements on more tokens

Statements that are read up to the end of a list of tokens are read the same where more tokens
follow, as long as the first of these is not an `else` (`Completes`). What follows is then read in
turn, and does not depend on where the token before it ended: a statement starts with a token, and
looks back at the end of none but those it has passed.

Results:
* `Fresh.bind`, `fresh_stmt`: a statement does not depend on where the token before it ended.
* `untilEnd_append`, `untilEnd_fresh`: statements one behind the other.
-/

namespace Quill

open Syntax

/-! ## The first token -/

/-- The cursor with another end of the token before it. -/
def Cursor.behindEnd (c : Cursor) (e : Position) : Cursor := { c with previousEnd := e }

namespace Parser

variable {α β : Type}

/-- The parser gives the same wherever the token before the cursor ended. -/
def Fresh (p : Parser α) : Prop :=
  ∀ ⦃c a c'⦄ (e : Position), c.Open → p c = .ok a c' → p (c.behindEnd e) = .ok a c'

namespace Fresh

variable {p q : Parser α} {f : α → Parser β}

/-- Only what comes first matters. -/
theorem bind (hp : Fresh p) : Fresh (p >>= f) := by
  intro c b c'' e hopen h
  obtain ⟨a, c', ha, hb⟩ := bind_ok.mp h
  exact bind_ok.mpr ⟨a, c', hp e hopen ha, hb⟩

theorem throw (e : Failure) : Fresh (MonadExcept.throw e : Parser α) := by
  intro c a c' _ _ h
  cases h

theorem unexpected : Fresh (Parser.unexpected : Parser α) := by
  intro c a c' _ _ h
  cases h

theorem ite {b : Prop} [Decidable b] (hp : Fresh p) (hq : Fresh q) :
    Fresh (if b then p else q) := by
  split_ifs
  · exact hp
  · exact hq

theorem peekKind {f : TokenKind → Parser β} (h : ∀ kind, Fresh (f kind)) :
    Fresh (Parser.peekKind >>= f) :=
  fun c _ _ e hopen hb => h c.kind e hopen hb

theorem peek {f : Token → Parser β} (h : ∀ t, Fresh (f t)) : Fresh (Parser.peek >>= f) :=
  fun c _ _ e hopen hb => h c.current e hopen hb

theorem advance : Fresh Parser.advance := by
  intro c t c' e hopen h
  cases h
  obtain ⟨_, rest, last⟩ := c
  obtain ⟨t, ts, hrest⟩ := List.exists_cons_of_ne_nil hopen
  obtain rfl : rest = t :: ts := hrest
  rfl

theorem expect (kind : TokenKind) : Fresh (Parser.expect kind) :=
  peekKind fun _ => advance.ite unexpected

end Fresh

end Parser

namespace Parse

open Quill.Parser

theorem fresh_expr (g : Grammar) (n : Nat) (power : Power) : Fresh (expr g n power) := by
  have hprimary : Fresh primary := by
    refine .peek fun t => ?_
    split
    · split
      · exact Fresh.advance.bind
      · exact .throw _
    · split
      · exact Fresh.advance.bind
      · exact .throw _
    · exact Fresh.advance.bind
    · exact Fresh.advance.bind
    · exact Fresh.advance.bind
    · exact Fresh.advance.bind
    · exact .unexpected
  cases n with
  | zero => exact .throw _
  | succ n =>
    refine Fresh.bind (.peekKind fun kind => ?_)
    cases g.exprStart kind with
    | none => exact .unexpected
    | some form =>
      cases form with
      | primary => exact hprimary
      | unary => exact Fresh.advance.bind
      | group | array | absent => exact (Fresh.expect _).bind

/-- A statement starts with a token, and looks back at the end of none but those it has passed. -/
theorem fresh_stmt (g : Grammar) (n : Nat) : Fresh (stmt g n) := by
  cases n with
  | zero => exact .throw _
  | succ n =>
    refine .peekKind fun kind => ?_
    cases g.stmt kind with
    | none => exact (fresh_expr g n .weakest).bind
    | some form =>
      cases form with
      | branch => exact (Fresh.expect _).bind
      | declare | struct | function | breakLoop | giveBack | whileLoop | repeatLoop | forLoop =>
        exact Fresh.advance.bind

end Parse

/-! ## Items up to the end -/

namespace Parser

variable {α : Type} {more : List Token} {last : EndToken} {p : Parser α}

theorem untilEnd_ok {n : Nat} {c c' : Cursor} {as : List α} (h : untilEnd p (n + 1) c = .ok as c') :
    c.kind = .eof ∧ as = [] ∧ c' = c ∨
      c.kind ≠ .eof ∧ ∃ a cs d, as = a :: cs ∧ p c = .ok a d ∧ untilEnd p n d = .ok cs c' := by
  change (if c.hasTokens then p >>= fun a => untilEnd p n >>= fun as => Pure.pure (a :: as)
    else Pure.pure [] : Parser (List α)) c = _ at h
  split_ifs at h with hc
  · obtain ⟨a, d, ha, h⟩ := bind_ok.mp h
    obtain ⟨as, d', has, h⟩ := bind_ok.mp h
    cases h
    exact .inr ⟨by simpa [Cursor.hasTokens] using hc, a, as, d, rfl, ha, has⟩
  · cases h
    exact .inl ⟨by simpa [Cursor.hasTokens] using hc, rfl, rfl⟩

theorem untilEnd_of_eof {n : Nat} {c : Cursor} (h : c.kind = .eof) :
    untilEnd p (n + 1) c = .ok [] c := by
  change (if c.hasTokens then _ else Pure.pure [] : Parser (List α)) c = _
  rw [if_neg (by simp [Cursor.hasTokens, h])]
  rfl

theorem untilEnd_of_item {n : Nat} {c d c' : Cursor} {a : α} {as : List α} (hc : c.kind ≠ .eof)
    (ha : p c = .ok a d) (has : untilEnd p n d = .ok as c') :
    untilEnd p (n + 1) c = .ok (a :: as) c' := by
  change (if c.hasTokens then p >>= fun a => untilEnd p n >>= fun as => Pure.pure (a :: as)
    else Pure.pure [] : Parser (List α)) c = _
  rw [if_pos (by simp [Cursor.hasTokens, hc])]
  exact bind_ok.mpr ⟨a, d, ha, bind_ok.mpr ⟨as, c', has, rfl⟩⟩

/-- Items that are read up to the end are read where more tokens follow, and then what follows. -/
theorem untilEnd_append {Q : α → α → Prop} {w n k : Nat} (hp : CompletesUnder .same w Q p p)
    (hmore : (more.headD last.token).kind ≠ .word .elseWord) {c c' d : Cursor} {as bs : List α}
    (hw : c.weight < w) (h : untilEnd p n c = .ok as c')
    (hrest : untilEnd p k (c'.before more last) = .ok bs d) :
    untilEnd p (as.length + k) (c.before more last) = .ok (as ++ bs) d := by
  induction n generalizing c as with
  | zero => cases h
  | succ n ih =>
    rcases untilEnd_ok h with ⟨-, rfl, rfl⟩ | ⟨hkind, a, as, c₁, rfl, ha, has⟩
    · simpa using hrest
    · have hitem := hp (.twice c) hw
      have hspends : Spends c.weight 1 (p c) := hitem.spends
      rw [ha] at hspends
      have hlighter : c₁.weight < c.weight := hspends
      rw [List.length_cons, Nat.add_right_comm]
      refine untilEnd_of_item ?_ (hitem.closes ha hmore) (ih (hlighter.trans hw) has)
      rwa [Cursor.before_kind (Cursor.open_of_kind hkind)]

/-- The first item decides for all of them. -/
theorem untilEnd_fresh (hp : Fresh p) {n : Nat} {c c' : Cursor} {as : List α} (e : Position)
    (h : untilEnd p n c = .ok as c') : ∃ d, untilEnd p n (c.behindEnd e) = .ok as d := by
  cases n with
  | zero => cases h
  | succ n =>
    rcases untilEnd_ok h with ⟨hkind, rfl, -⟩ | ⟨hkind, a, as, c₁, rfl, ha, has⟩
    · exact ⟨_, untilEnd_of_eof (c := c.behindEnd e) hkind⟩
    · have hfirst := hp e (Cursor.open_of_kind hkind) ha
      exact ⟨_, untilEnd_of_item (c := c.behindEnd e) hkind hfirst has⟩

end Parser

end Quill
