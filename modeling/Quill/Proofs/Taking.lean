import Quill.Proofs.Printing
import Quill.Proofs.Reading

/-!
# Parsers take what is printed

`Cursor.ahead` is what the tokens from a cursor on say, and all that is looked at here.
`Takes c p ys Q` says that the parser `p` succeeds at the cursor `c` with a result that has the
property `Q`, and leaves `ys` ahead. The rules for `Takes` follow the way parsers are put together.

An expression of level `q` that is read at a power stands there without parentheses if `q` is
tighter than the power (`Power.Admits`), and its own operator leaves alone what follows it if that
does not continue an expression read at `q.right` (`Stops`). Then the parser, whatever it does after
that, starts by reading the expression (`Opens`): the terminals behind it may go on with it, if the
power allows. This is how a left operand is read, and the induction is on the tree.

Results:
* `Takes.bind` and its like: the rules.
* `takes_typeExpr`: annotations.
* `opens_print`, `takes_expr`: expressions.
-/

namespace Quill

open Syntax

/-! ## What lies ahead of a cursor -/

/-- What the tokens from the cursor on say. -/
def Cursor.ahead (c : Cursor) : List Terminal := terminals c.rest

namespace Cursor

variable {c : Cursor} {x : Terminal} {xs : List Terminal}

theorem kind_of_ahead_nil (h : c.ahead = []) : c.kind = .eof := by
  by_contra hkind
  have hrest := rest_eq_cons hkind
  cases hcurrent : c.current.terminal? with
  | none => exact hkind (Token.kind_of_terminal?_none hcurrent)
  | some x =>
    rw [ahead, hrest, terminals_cons hcurrent] at h
    cases h

theorem current_and_advance_of_ahead (h : c.ahead = x :: xs) :
    c.current.terminal? = some x ∧ c.advance.ahead = xs := by
  have hkind : c.kind ≠ .eof := by
    intro heof
    rw [ahead, terminals_of_kind heof] at h
    cases h
  cases hcurrent : c.current.terminal? with
  | none => exact absurd (Token.kind_of_terminal?_none hcurrent) hkind
  | some y =>
    rw [ahead, rest_eq_cons hkind, terminals_cons hcurrent] at h
    obtain ⟨rfl, hxs⟩ := List.cons.inj h
    exact ⟨rfl, hxs⟩

theorem current_of_ahead (h : c.ahead = x :: xs) : c.current.terminal? = some x :=
  (current_and_advance_of_ahead h).1

theorem advance_ahead (h : c.ahead = x :: xs) : c.advance.ahead = xs :=
  (current_and_advance_of_ahead h).2

theorem kind_of_ahead (h : c.ahead = x :: xs) : c.kind = x.kind :=
  Token.kind_of_terminal? (current_of_ahead h)

theorem head?_ahead (h : c.current.terminal? = some x) : c.ahead.head? = some x := by
  rw [ahead, rest_eq_cons (Token.kind_ne_eof h), terminals_cons h, List.head?_cons]

/-- Only a `>>` is cut. -/
theorem splitShift_of_kind (h : c.kind ≠ .mark .shiftRight) : c.splitShift = c := by
  rcases c.splitShift_cases with heq | ⟨t, _, _, ts, hrest, ht, -⟩
  · exact heq
  · exact absurd (by rw [kind, current, hrest]; exact ht) h

end Cursor

/-! ## Rules -/

namespace Parser

variable {α β : Type} {c : Cursor} {p : Parser α} {f : α → Parser β} {xs ys zs : List Terminal}
  {x : Terminal}

/-- The parser succeeds at the cursor; its result has the property, and the terminals are ahead of the
cursor that it leaves. -/
def Takes (c : Cursor) (p : Parser α) (ys : List Terminal) (Q : α → Prop) : Prop :=
  ∃ a c', p c = .ok a c' ∧ c'.ahead = ys ∧ Q a

namespace Takes

variable {P Q : α → Prop} {R : β → Prop}

theorem pure {a : α} (hc : c.ahead = ys) (h : Q a) : Takes c (Pure.pure a) ys Q :=
  ⟨a, c, rfl, hc, h⟩

theorem imp (h : Takes c p ys P) (hPQ : ∀ a, P a → Q a) : Takes c p ys Q := by
  obtain ⟨a, c', ha, hc', hP⟩ := h
  exact ⟨a, c', ha, hc', hPQ a hP⟩

theorem bind (hp : Takes c p ys P)
    (hf : ∀ a c', c'.ahead = ys → P a → Takes c' (f a) zs R) : Takes c (p >>= f) zs R := by
  obtain ⟨a, c', ha, hc', hP⟩ := hp
  obtain ⟨b, c'', hb, hc'', hR⟩ := hf a c' hc' hP
  exact ⟨b, c'', bind_ok.mpr ⟨a, c', ha, hb⟩, hc'', hR⟩

/-! What moves the cursor not at all. -/

theorem get {f : Cursor → Parser β} (h : Takes c (f c) ys R) :
    Takes c (MonadState.get >>= f) ys R := h

theorem peekKind {f : TokenKind → Parser β} (h : Takes c (f c.kind) ys R) :
    Takes c (Parser.peekKind >>= f) ys R := h

theorem peek {f : Token → Parser β} (h : Takes c (f c.current) ys R) :
    Takes c (Parser.peek >>= f) ys R := h

theorem spanFrom {f : Span → Parser β} {start : Position} (h : ∀ s, Takes c (f s) ys R) :
    Takes c (Parser.spanFrom start >>= f) ys R := h _

/-! What passes a token. -/

theorem advance {f : Token → Parser β} (hc : c.ahead = x :: xs)
    (h : ∀ c', c'.ahead = xs → Takes c' (f c.current) ys R) :
    Takes c (Parser.advance >>= f) ys R :=
  h c.advance (Cursor.advance_ahead hc)

theorem expect {f : Token → Parser β} {kind : TokenKind} (hkind : x.kind = kind)
    (hc : c.ahead = x :: xs)
    (h : ∀ t c', t.terminal? = some x → c'.ahead = xs → Takes c' (f t) ys R) :
    Takes c (Parser.expect kind >>= f) ys R := by
  have hpass : Parser.expect kind c = .ok c.current c.advance := by
    change (if c.kind = kind then Parser.advance else Parser.unexpected) c = _
    rw [if_pos ((Cursor.kind_of_ahead hc).trans hkind)]
    rfl
  obtain ⟨b, c', hb, hc', hR⟩ := h _ _ (Cursor.current_of_ahead hc) (Cursor.advance_ahead hc)
  exact ⟨b, c', bind_ok.mpr ⟨_, _, hpass, hb⟩, hc', hR⟩

theorem expectOr {f : Token → Parser β} {kind : TokenKind} {message : String}
    (hkind : x.kind = kind) (hc : c.ahead = x :: xs)
    (h : ∀ t c', t.terminal? = some x → c'.ahead = xs → Takes c' (f t) ys R) :
    Takes c (Parser.expectOr kind message >>= f) ys R := by
  have hpass : Parser.expectOr kind message c = .ok c.current c.advance := by
    change (if c.kind = kind then Parser.advance else Parser.unexpectedHere message) c = _
    rw [if_pos ((Cursor.kind_of_ahead hc).trans hkind)]
    rfl
  obtain ⟨b, c', hb, hc', hR⟩ := h _ _ (Cursor.current_of_ahead hc) (Cursor.advance_ahead hc)
  exact ⟨b, c', bind_ok.mpr ⟨_, _, hpass, hb⟩, hc', hR⟩

theorem mark {f : Token → Parser β} {m : Mark} (hc : c.ahead = .mark m :: xs)
    (h : ∀ t c', c'.ahead = xs → Takes c' (f t) ys R) :
    Takes c (Parser.expect (.mark m) >>= f) ys R :=
  expect rfl hc fun t c' _ => h t c'

theorem word {f : Token → Parser β} {k : Keyword} (hc : c.ahead = .word k :: xs)
    (h : ∀ t c', c'.ahead = xs → Takes c' (f t) ys R) :
    Takes c (Parser.expect (.word k) >>= f) ys R :=
  expect rfl hc fun t c' _ => h t c'

theorem name {f : Token → Parser β} {s : String} (hc : c.ahead = .name s :: xs)
    (h : ∀ t c', t.value = s → c'.ahead = xs → Takes c' (f t) ys R) :
    Takes c (Parser.expect .identifier >>= f) ys R :=
  expect rfl hc fun t c' ht => h t c' (Token.value_of_terminal? ht rfl)

theorem nameOr {f : Token → Parser β} {s message : String} (hc : c.ahead = .name s :: xs)
    (h : ∀ t c', t.value = s → c'.ahead = xs → Takes c' (f t) ys R) :
    Takes c (Parser.expectOr .identifier message >>= f) ys R :=
  expectOr rfl hc fun t c' ht => h t c' (Token.value_of_terminal? ht rfl)

theorem accept {f : Bool → Parser β} {kind : TokenKind} (hkind : x.kind = kind)
    (hc : c.ahead = x :: xs) (h : ∀ c', c'.ahead = xs → Takes c' (f true) ys R) :
    Takes c (Parser.accept kind >>= f) ys R := by
  have hpass : Parser.accept kind c = .ok true c.advance := by
    change (if c.kind = kind then (Parser.advance >>= fun _ => Pure.pure true) else
      Pure.pure false : Parser Bool) c = _
    rw [if_pos ((Cursor.kind_of_ahead hc).trans hkind)]
    rfl
  obtain ⟨b, c', hb, hc', hR⟩ := h _ (Cursor.advance_ahead hc)
  exact ⟨b, c', bind_ok.mpr ⟨_, _, hpass, hb⟩, hc', hR⟩

theorem decline {f : Bool → Parser β} {kind : TokenKind} (hkind : c.kind ≠ kind)
    (h : Takes c (f false) ys R) : Takes c (Parser.accept kind >>= f) ys R := by
  have hstay : Parser.accept kind c = .ok false c := by
    change (if c.kind = kind then (Parser.advance >>= fun _ => Pure.pure true) else
      Pure.pure false : Parser Bool) c = _
    rw [if_neg hkind]
    rfl
  obtain ⟨b, c', hb, hc', hR⟩ := h
  exact ⟨b, c', bind_ok.mpr ⟨_, _, hstay, hb⟩, hc', hR⟩

theorem sumEnd {f : Token → Parser β} (hc : c.ahead = .mark .greater :: xs)
    (h : ∀ t c', c'.ahead = xs → Takes c' (f t) ys R) :
    Takes c (Parser.splitShift >>= fun _ => Parser.expect (.mark .greater) >>= f) ys R := by
  have hstay : Parser.splitShift c = .ok () c := by
    change EStateM.Result.ok () c.splitShift = _
    rw [Cursor.splitShift_of_kind (by rw [Cursor.kind_of_ahead hc]; decide)]
  obtain ⟨b, c', hb, hc', hR⟩ := mark hc h
  exact ⟨b, c', bind_ok.mpr ⟨_, _, hstay, hb⟩, hc', hR⟩

end Takes

/-! ## Lists -/

section

variable {item : Parser α} {print : α → List Terminal} {view : α → β} {close : Mark}

/-- The items are taken, whether a comma or the end of the list follows them. -/
def TakesItems (item : Parser α) (print : α → List Terminal) (view : α → β) (close : Mark)
    (as : List α) : Prop :=
  ∀ a ∈ as, ∀ (c : Cursor) (m : Mark) (xs : List Terminal), m = .comma ∨ m = close →
    c.ahead = print a ++ .mark m :: xs → Takes c item (.mark m :: xs) fun b => view b = view a

theorem TakesItems.tail {a : α} {as : List α} (h : TakesItems item print view close (a :: as)) :
    TakesItems item print view close as := fun b hb => h b (List.mem_cons_of_mem a hb)

/-- No item starts with the end of the list. -/
def NoneStarts (print : α → List Terminal) (close : Mark) (as : List α) : Prop :=
  ∀ a ∈ as, ∃ x xs, print a = x :: xs ∧ x.kind ≠ .mark close

theorem length_le_commas {w : List Terminal} {ws : List (List Terminal)} (h : w ∈ ws) :
    w.length ≤ (commas ws).length := by
  induction ws using commas.induct with
  | case1 => cases h
  | case2 u =>
    rw [List.mem_singleton] at h
    rw [h, commas]
  | case3 u v ws ih =>
    simp only [commas, List.length_append, List.length_cons]
    rcases List.mem_cons.mp h with rfl | h
    · omega
    · have := ih h
      omega

theorem NoneStarts.tail {a : α} {as : List α} (h : NoneStarts print close (a :: as)) :
    NoneStarts print close as := fun b hb => h b (List.mem_cons_of_mem a hb)

theorem NoneStarts.length_le {as : List α} (h : NoneStarts print close as) :
    as.length ≤ (commas (as.map print)).length := by
  induction as with
  | nil => exact Nat.zero_le _
  | cons a as ih =>
    obtain ⟨x, xs, hx, -⟩ := h a (by simp)
    have htail := ih h.tail
    cases as with
    | nil => simp [commas, hx]
    | cons a' as =>
      simp only [List.map_cons, commas, hx, List.length_append, List.length_cons] at htail ⊢
      omega

/-- Ahead of the first item there is something else than the end of the list. -/
theorem NoneStarts.kind_ne {a : α} {as : List α} (h : NoneStarts print close (a :: as))
    (hc : c.ahead = commas ((a :: as).map print) ++ xs) : c.kind ≠ .mark close := by
  obtain ⟨x, ys, hx, hkind⟩ := h a (by simp)
  cases as with
  | nil =>
    simp only [List.map_cons, List.map_nil, commas, hx, List.cons_append] at hc
    rwa [Cursor.kind_of_ahead hc]
  | cons a' as =>
    simp only [List.map_cons, commas, hx, List.cons_append] at hc
    rwa [Cursor.kind_of_ahead hc]

/-- An item and what follows it: a comma and the other items, or the end of the list. -/
theorem TakesItems.step {γ : Type} {f : α → Bool → Parser γ} {R : γ → Prop} {a : α} {as : List α}
    (hitems : TakesItems item print view close (a :: as)) (hclose : close ≠ .comma)
    (hc : c.ahead = commas ((a :: as).map print) ++ .mark close :: xs)
    (hlast : as = [] → ∀ b c', view b = view a → c'.ahead = .mark close :: xs →
      Takes c' (f b false) ys R)
    (hmore : as ≠ [] → ∀ b c', view b = view a →
      c'.ahead = commas (as.map print) ++ .mark close :: xs → Takes c' (f b true) ys R) :
    Takes c (item >>= fun b => accept (.mark .comma) >>= f b) ys R := by
  cases as with
  | nil =>
    refine .bind (hitems a (by simp) c close xs (.inr rfl) hc) fun b c₁ hc₁ hb => ?_
    refine .decline ?_ (hlast rfl b c₁ hb hc₁)
    rw [Cursor.kind_of_ahead hc₁]
    simpa [Terminal.kind] using hclose
  | cons a' as =>
    simp only [List.map_cons, commas, List.append_assoc, List.cons_append] at hc
    refine .bind (hitems a (by simp) c .comma _ (.inl rfl) hc) fun b c₁ hc₁ hb => ?_
    exact .accept rfl hc₁ fun c₂ hc₂ => hmore (by simp) b c₂ hb hc₂

theorem takes_commaSeparated (hclose : close ≠ .comma) {as : List α} :
    as ≠ [] → TakesItems item print view close as → ∀ {n : Nat} {c : Cursor} {xs : List Terminal},
    as.length ≤ n → c.ahead = commas (as.map print) ++ .mark close :: xs →
    Takes c (commaSeparated item n) (.mark close :: xs) fun bs => bs.map view = as.map view := by
  induction as with
  | nil => exact fun hne => absurd rfl hne
  | cons a as ih =>
    intro _ hitems n c xs hn hc
    rw [List.length_cons] at hn
    obtain ⟨n, rfl⟩ : ∃ k, n = k + 1 := ⟨n - 1, by omega⟩
    refine hitems.step hclose hc (fun hnil b c₁ hb hc₁ => ?_) fun hne b c₁ hb hc₁ => ?_
    · exact .pure hc₁ (by rw [hnil, List.map_cons, List.map_cons, hb])
    · refine .bind (ih hne hitems.tail (by omega) hc₁) fun bs c₂ hc₂ hbs => .pure hc₂ ?_
      rw [List.map_cons, List.map_cons, hb, hbs]

theorem takes_commaClosed (hclose : close ≠ .comma) {as : List α} :
    NoneStarts print close as → TakesItems item print view close as →
    ∀ {n : Nat} {c : Cursor} {xs : List Terminal},
    as.length < n → c.ahead = commas (as.map print) ++ .mark close :: xs →
    Takes c (commaClosed (.mark close) item n) (.mark close :: xs)
      fun bs => bs.map view = as.map view := by
  induction as with
  | nil =>
    intro _ _ n c xs hn hc
    obtain ⟨n, rfl⟩ : ∃ k, n = k + 1 := ⟨n - 1, by simp at hn; omega⟩
    refine .peekKind ?_
    rw [if_pos (show c.kind = .mark close from Cursor.kind_of_ahead hc)]
    exact .pure hc rfl
  | cons a as ih =>
    intro hstart hitems n c xs hn hc
    rw [List.length_cons] at hn
    obtain ⟨n, rfl⟩ : ∃ k, n = k + 1 := ⟨n - 1, by omega⟩
    refine .peekKind ?_
    rw [if_neg (hstart.kind_ne hc)]
    refine hitems.step hclose hc (fun hnil b c₁ hb hc₁ => ?_) fun hne b c₁ hb hc₁ => ?_
    · exact .pure hc₁ (by rw [hnil, List.map_cons, List.map_cons, hb])
    · refine .bind (ih hstart.tail hitems.tail (by omega) hc₁) fun bs c₂ hc₂ hbs => .pure hc₂ ?_
      rw [List.map_cons, List.map_cons, hb, hbs]

theorem takes_commaOptional (hclose : close ≠ .comma) {as : List α} :
    NoneStarts print close as → TakesItems item print view close as →
    ∀ {n : Nat} {c : Cursor} {xs : List Terminal},
    as.length < n → c.ahead = commas (as.map print) ++ .mark close :: xs →
    Takes c (commaOptional (.mark close) item n) (.mark close :: xs)
      fun bs => bs.map view = as.map view := by
  induction as with
  | nil =>
    intro _ _ n c xs hn hc
    obtain ⟨n, rfl⟩ : ∃ k, n = k + 1 := ⟨n - 1, by simp at hn; omega⟩
    refine .peekKind ?_
    rw [if_pos (show c.kind = .mark close from Cursor.kind_of_ahead hc)]
    exact .pure hc rfl
  | cons a as ih =>
    intro hstart hitems n c xs hn hc
    rw [List.length_cons] at hn
    obtain ⟨n, rfl⟩ : ∃ k, n = k + 1 := ⟨n - 1, by omega⟩
    refine .peekKind ?_
    rw [if_neg (hstart.kind_ne hc)]
    -- with a comma or without, the other items follow
    have hrest : ∀ b c', view b = view a → c'.ahead = commas (as.map print) ++ .mark close :: xs →
        Takes c' (commaOptional (.mark close) item n >>= fun bs => pure (b :: bs))
          (.mark close :: xs) fun bs => bs.map view = (a :: as).map view := by
      intro b c' hb hc'
      refine .bind (ih hstart.tail hitems.tail (by omega) hc') fun bs c₂ hc₂ hbs => .pure hc₂ ?_
      rw [List.map_cons, List.map_cons, hb, hbs]
    refine hitems.step hclose hc (fun hnil b c₁ hb hc₁ => ?_) fun _ => hrest
    exact hrest b c₁ hb (by rw [hc₁, hnil]; rfl)

end

end Parser

/-! ## Annotations -/

theorem head?_cons_ne {x y : Terminal} {xs : List Terminal} (h : x ≠ y) :
    (x :: xs).head? ≠ some y := fun hhead => h (Option.some.inj hhead)

namespace Parse

open Quill.Parser

/-- Whatever the parser of annotations does at the terminals of the annotation, it starts by reading
it, and has budget left for what follows. Behind a function type no `?` may follow. -/
def OpensType (t : TypeExpr) : Prop :=
  ∀ ⦃n : Nat⦄ ⦃c : Cursor⦄ ⦃rest zs : List Terminal⦄ ⦃R : TypeExpr → Prop⦄,
    t.print.length ≤ n → c.ahead = t.print ++ rest →
    (t.isFunction = true → rest.head? ≠ some (.mark .question)) →
    (∀ t' c' k, c'.ahead = rest → t'.unplaced = t.unplaced → n < k + t.print.length →
      Takes c' (typeTail .standard .weakest k t') zs R) →
    Takes c (typeExpr .standard (n + 1) .weakest) zs R

theorem takes_typeTail {c : Cursor} {rest : List Terminal} (hc : c.ahead = rest)
    (hrest : rest.head? ≠ some (.mark .question)) (k : Nat) (t : TypeExpr) :
    Takes c (typeTail .standard .weakest (k + 1) t) rest fun t' => t' = t := by
  refine .peekKind ?_
  split
  · exact .pure hc rfl
  · rename_i hfollow
    obtain ⟨hkind, -⟩ := typeFollow_eq hfollow
    rw [← hc] at hrest
    exact absurd (Cursor.head?_ahead (Token.terminal?_mark hkind)) hrest

theorem OpensType.takes {t : TypeExpr} (h : OpensType t) {n : Nat} {c : Cursor}
    {rest : List Terminal} (hn : t.print.length < n) (hc : c.ahead = t.print ++ rest)
    (hrest : rest.head? ≠ some (.mark .question)) :
    Takes c (typeExpr .standard n .weakest) rest fun t' => t'.unplaced = t.unplaced := by
  obtain ⟨n, rfl⟩ : ∃ k, n = k + 1 := ⟨n - 1, by omega⟩
  refine h (by omega) hc (fun _ => hrest) fun t' c' k hc' ht' hk => ?_
  obtain ⟨k, rfl⟩ : ∃ j, k = j + 1 := ⟨k - 1, by omega⟩
  refine (takes_typeTail hc' hrest k t').imp fun t'' ht'' => ?_
  rw [ht'', ht']

/-- What is read as the start of an annotation opens it. -/
theorem opensType_of_head {t : TypeExpr}
    (h : ∀ {n : Nat} {c : Cursor} {rest : List Terminal}, t.print.length ≤ n →
      c.ahead = t.print ++ rest → (t.isFunction = true → rest.head? ≠ some (.mark .question)) →
      Takes c (typeHead .standard (typeExpr .standard n .weakest) n) rest
        fun t' => t'.unplaced = t.unplaced) : OpensType t := by
  intro n c rest zs R hn hc hrest hk
  obtain ⟨x, xs, hx, -⟩ := t.exists_head
  refine .bind (h hn hc hrest) fun t' c' hc' ht' => hk t' c' n hc' ht' ?_
  simp [hx]

theorem noneStarts_typePrint (close : Mark)
    (hclose : Grammar.standardTypeStart (.mark close) = none) (ts : List TypeExpr) :
    NoneStarts TypeExpr.print close ts := by
  intro t _
  obtain ⟨x, xs, hx, hstart⟩ := t.exists_head
  refine ⟨x, xs, hx, fun hkind => ?_⟩
  rw [hkind, hclose] at hstart
  cases hstart

/-- Annotations in a list are taken if each of them opens. -/
theorem takesItems_typeExpr {close : Mark} (hclose : close ≠ .question) {ts : List TypeExpr}
    (hts : ∀ t ∈ ts, OpensType t) {n : Nat}
    (hn : (commas (ts.map TypeExpr.print)).length < n) :
    TakesItems (typeExpr .standard n .weakest) TypeExpr.print TypeExpr.unplaced close ts := by
  intro t ht c m xs hm hc
  have hlength := length_le_commas (List.mem_map_of_mem (f := TypeExpr.print) ht)
  refine (hts t ht).takes (by omega) hc (head?_cons_ne ?_)
  rcases hm with rfl | rfl
  · decide
  · exact fun h => hclose (Terminal.mark.inj h)

/-- **An annotation that can be printed opens**, by induction on it. -/
theorem opensType_print {t : TypeExpr} (ht : t.Printable) : OpensType t := by
  induction ht with
  | named =>
    refine opensType_of_head fun _ hc _ => .peekKind ?_
    rw [Cursor.kind_of_ahead hc]
    exact .name hc fun t c' ht hc' => .pure hc' (by rw [ht]; rfl)
  | @array t span _ ih =>
    refine opensType_of_head fun {n} c rest hn hc _ => .peekKind ?_
    simp only [TypeExpr.print, List.cons_append, List.append_assoc, List.length_cons,
      List.length_append] at hc hn
    rw [Cursor.kind_of_ahead hc]
    refine .mark hc fun _ c₁ hc₁ => .bind (ih.takes (by omega) hc₁ (head?_cons_ne (by decide))) fun t' c₂ hc₂ ht' => ?_
    exact .mark hc₂ fun _ c₃ hc₃ => .spanFrom fun s => .pure hc₃ (by simp [TypeExpr.unplaced, ht'])
  | @optional t span _ hbase ih =>
    -- the mark of interrogation is read by the loop that goes on with the base
    intro n c rest zs R hn hc _ hk
    simp only [TypeExpr.print, List.append_assoc, List.length_append] at hc hn hk
    refine ih (by omega) hc (by simp [hbase]) fun t' c₁ k hc₁ ht' hk' => ?_
    obtain ⟨k, rfl⟩ : ∃ j, k = j + 1 := ⟨k - 1, by omega⟩
    refine .peekKind ?_
    rw [Cursor.kind_of_ahead hc₁]
    refine .bind (P := fun t'' => t''.unplaced = (TypeExpr.optional t span).unplaced)
      (.mark hc₁ fun _ c₂ hc₂ => .spanFrom fun s => .pure hc₂ (by simp [TypeExpr.unplaced, ht'])) ?_
    intro t'' c₂ hc₂ ht''
    exact hk t'' c₂ k hc₂ ht'' (by simp; omega)
  | @sum ts span hne _ ih =>
    refine opensType_of_head fun {n} c rest hn hc _ => .peekKind ?_
    simp only [TypeExpr.print, TypeExpr.prints_eq, List.cons_append, List.append_assoc,
      List.length_cons, List.length_append] at hc hn
    have hlength := (noneStarts_typePrint .greater rfl ts).length_le
    rw [Cursor.kind_of_ahead hc]
    refine .mark hc fun _ c₁ hc₁ => .bind (takes_commaSeparated (by decide) hne
      (takesItems_typeExpr (by decide) ih (by omega)) (by omega) hc₁) fun ts' c₂ hc₂ hts' => ?_
    exact .sumEnd hc₂ fun _ c₃ hc₃ => .spanFrom fun s => .pure hc₃ (by simp [TypeExpr.unplaced, hts'])
  | @function ps r span _ _ ihparams ihresult =>
    refine opensType_of_head fun {n} c rest hn hc hrest => .peekKind ?_
    simp only [TypeExpr.print, TypeExpr.prints_eq, List.cons_append, List.append_assoc,
      List.length_cons, List.length_append] at hc hn
    have hstart := noneStarts_typePrint .closeParen rfl ps
    have hlength := hstart.length_le
    rw [Cursor.kind_of_ahead hc]
    refine .mark hc fun _ c₁ hc₁ => .bind (takes_commaClosed (by decide) hstart
      (takesItems_typeExpr (by decide) ihparams (by omega)) (by omega) hc₁) fun ps' c₂ hc₂ hps' => ?_
    refine .mark hc₂ fun _ c₃ hc₃ => .mark hc₃ fun _ c₄ hc₄ => ?_
    refine .bind (ihresult.takes (by omega) hc₄ (hrest rfl)) fun r' c₅ hc₅ hr' => ?_
    exact .spanFrom fun s => .pure hc₅ (by simp [TypeExpr.unplaced, hps', hr'])

/-! ## Expressions -/

end Parse

/-- An expression of the other power may be read at the power without parentheses. An operator at
its start is never too loose, since nothing stands before it. -/
def Power.Admits (p q : Power) : Prop := p < q ∨ q = .unary ∨ q = .weakest

theorem Power.weakest_admits (q : Power) : Power.weakest.Admits q := by
  unfold Admits
  cases q <;> decide

theorem Power.unary_le_right {q : Power} (h : .unary ≤ q) : .unary ≤ q.right := by
  revert h
  cases q <;> decide

namespace Parse

open Quill.Parser

/-- The terminals do not start with a continuation of an expression that is read at the power. -/
def Stops (p : Power) (xs : List Terminal) : Prop :=
  ∀ x ∈ xs.head?, ∀ q form, Grammar.standardExprFollow x.kind = some (q, form) → q ≤ p

theorem Stops.mono {p q : Power} {xs : List Terminal} (h : Stops p xs) (hpq : p ≤ q) :
    Stops q xs := fun x hx r form hr => Power.le_trans (h x hx r form hr) hpq

theorem stops_cons {x : Terminal} (h : Grammar.standardExprFollow x.kind = none) (p : Power)
    (xs : List Terminal) : Stops p (x :: xs) := by
  intro y hy q form hq
  cases hy
  rw [h] at hq
  cases hq

theorem Stops.stopsAt {p : Power} {c : Cursor} {xs : List Terminal} (h : Stops p xs)
    (hc : c.ahead = xs) : StopsAt p c := by
  intro q form hq
  cases xs with
  | nil =>
    rw [Cursor.kind_of_ahead_nil hc] at hq
    cases hq
  | cons x xs =>
    rw [Cursor.kind_of_ahead hc] at hq
    exact h x rfl q form hq

/-- Whatever the parser of expressions does at the terminals, it starts by reading the expression,
and has budget left for what follows. -/
def Opens (e : Expr) (q : Power) (w : List Terminal) : Prop :=
  ∀ ⦃n : Nat⦄ ⦃p : Power⦄ ⦃c : Cursor⦄ ⦃rest zs : List Terminal⦄ ⦃R : Expr → Prop⦄,
    w.length ≤ n → p.Admits q → c.ahead = w ++ rest → Stops q.right rest →
    (∀ e' c' k, c'.ahead = rest → e'.unplaced = e.unplaced → n < k + w.length →
      Takes c' (exprTail .standard (expr .standard n) p k e') zs R) →
    Takes c (expr .standard (n + 1) p) zs R

theorem takes_exprTail {p : Power} {c : Cursor} {rest : List Terminal} (hc : c.ahead = rest)
    (hrest : Stops p rest) (expr : Power → Parser Expr) (k : Nat) (e : Expr) :
    Takes c (exprTail .standard expr p (k + 1) e) rest fun e' => e' = e := by
  refine .peekKind ?_
  split
  · exact .pure hc rfl
  · rename_i hfollow
    rw [if_pos (hrest.stopsAt hc _ _ hfollow)]
    exact .pure hc rfl

theorem Opens.takes {e : Expr} {p q : Power} {w : List Terminal} (h : Opens e q w) {n : Nat}
    {c : Cursor} {rest : List Terminal} (hn : w.length < n) (hp : p.Admits q)
    (hc : c.ahead = w ++ rest) (hown : Stops q.right rest) (hrest : Stops p rest) :
    Takes c (expr .standard n p) rest fun e' => e'.unplaced = e.unplaced := by
  obtain ⟨n, rfl⟩ : ∃ k, n = k + 1 := ⟨n - 1, by omega⟩
  refine h (by omega) hp hc hown fun e' c' k hc' he' hk => ?_
  obtain ⟨k, rfl⟩ : ∃ j, k = j + 1 := ⟨k - 1, by omega⟩
  refine (takes_exprTail hc' hrest _ k e').imp fun e'' he'' => ?_
  rw [he'', he']

/-- What stands between delimiters is taken as a whole. -/
theorem Opens.takes_weakest {e : Expr} {q : Power} {w : List Terminal} (h : Opens e q w) {n : Nat}
    {c : Cursor} {x : Terminal} {xs : List Terminal} (hn : w.length < n)
    (hx : Grammar.standardExprFollow x.kind = none) (hc : c.ahead = w ++ x :: xs) :
    Takes c (expr .standard n .weakest) (x :: xs) fun e' => e'.unplaced = e.unplaced :=
  h.takes hn q.weakest_admits hc (stops_cons hx _ xs) (stops_cons hx _ xs)

/-- What is read as the start of an expression opens it. -/
theorem opens_of_head {e : Expr} {q : Power} {x : Terminal} {w : List Terminal}
    (h : ∀ {n : Nat} {c : Cursor} {rest : List Terminal}, w.length < n →
      c.ahead = x :: (w ++ rest) → Stops q.right rest →
      Takes c (exprHead .standard (expr .standard n) (typeExpr .standard n .weakest) n) rest
        fun e' => e'.unplaced = e.unplaced) : Opens e q (x :: w) := by
  intro n p c rest zs R hn _ hc hrest hk
  rw [List.length_cons] at hn hk
  exact .bind (h (by omega) hc hrest) fun e' c' hc' he' => hk e' c' n hc' he' (by omega)

/-- **An expression and a continuation of it open as one**, if the expression is tight enough to be
a left operand: then its own operator does not take the continuation, and the loop that reads at the
power goes on with it. -/
theorem opens_of_continuation {l e : Expr} {p q : Power} {form : ExprFollow} {x : Terminal}
    {w v : List Terminal} (hl : Opens l p w) (hp : q.TakesLeft p) (hq : q ≠ .unary ∧ q ≠ .weakest)
    (hfollow : Grammar.standardExprFollow x.kind = some (q, form))
    (h : ∀ {n k : Nat} {c : Cursor} {rest : List Terminal} {l' : Expr},
      l'.unplaced = l.unplaced → v.length < n → v.length < k → c.ahead = x :: (v ++ rest) →
      Stops q.right rest →
      Takes c (continuation (expr .standard n) k l' q form) rest
        fun e' => e'.unplaced = e.unplaced) : Opens e q (w ++ x :: v) := by
  intro n r c rest zs R hn hr hc hrest hk
  have hrq : r < q := hr.resolve_right fun h => h.elim hq.1 hq.2
  rw [List.length_append, List.length_cons] at hn hk
  rw [List.append_assoc, List.cons_append] at hc
  -- the operand leaves the continuation alone, and so it comes back to the loop that reads at `r`
  have hown : Stops p.right (x :: (v ++ rest)) := by
    intro y hy q' form' hq'
    cases hy
    rw [hfollow] at hq'
    cases hq'
    exact Power.takesLeft_iff.mp hp
  refine hl (by omega) (.inl (Power.lt_of_lt_of_le hrq hp.le)) hc hown fun l' c₁ k hc₁ hl' hk' => ?_
  obtain ⟨k, rfl⟩ : ∃ j, k = j + 1 := ⟨k - 1, by omega⟩
  refine .peekKind ?_
  have hkind : Grammar.standard.exprFollow c₁.kind = some (q, form) := by
    rw [Cursor.kind_of_ahead hc₁]
    exact hfollow
  rw [hkind]
  simp only [if_neg (Power.lt_iff_not_le.mp hrq)]
  refine .bind (h hl' (by omega) (by omega) hc₁ hrest) fun e' c₂ hc₂ he' => ?_
  exact hk e' c₂ k hc₂ he' (by omega)

/-- Parentheses make any expression as tight as can be. -/
theorem Opens.parenthesized {e : Expr} {q : Power} {w : List Terminal} (h : Opens e q w) :
    Opens e .primary (parenthesized w) := by
  refine opens_of_head fun hn hc _ => .peekKind ?_
  rw [List.length_append, List.length_singleton] at hn
  rw [Cursor.kind_of_ahead hc]
  rw [List.append_assoc] at hc
  refine .mark hc fun _ c₁ hc₁ => .bind (h.takes_weakest (by omega) rfl hc₁) fun e' c₂ hc₂ he' => ?_
  exact .mark hc₂ fun _ c₃ hc₃ => .pure hc₃ he'

/-- An operand is as tight as its place asks. -/
theorem Opens.operand {e : Expr} {q : Power} {w : List Terminal} (h : Opens e q w)
    (tight : Power → Prop) [DecidablePred tight] (hprimary : tight .primary) :
    ∃ r, tight r ∧ Opens e r (operand (tight q) w) := by
  unfold Syntax.operand
  split_ifs with hq
  · exact ⟨q, hq, h⟩
  · exact ⟨.primary, hprimary, h.parenthesized⟩

theorem noneStarts_print (text : Float → String) (close : Mark)
    (hclose : Grammar.standardExprStart (.mark close) = none) (es : List Expr) :
    NoneStarts (Expr.print text) close es := by
  intro e _
  obtain ⟨x, xs, hx, hstart⟩ := e.exists_head text
  refine ⟨x, xs, hx, fun hkind => ?_⟩
  rw [hkind, hclose] at hstart
  cases hstart

/-- Expressions in a list are taken if each of them opens. -/
theorem takesItems_expr {text : Float → String} {close : Mark}
    (hclose : Grammar.standardExprFollow (.mark close) = none) {es : List Expr}
    (hes : ∀ e ∈ es, Opens e e.level (e.print text)) {n : Nat}
    (hn : (commas (es.map (Expr.print text))).length < n) :
    TakesItems (expr .standard n .weakest) (Expr.print text) Expr.unplaced close es := by
  intro e he c m xs hm hc
  have hlength := length_le_commas (List.mem_map_of_mem (f := Expr.print text) he)
  refine (hes e he).takes_weakest (by omega) ?_ hc
  rcases hm with rfl | rfl
  · rfl
  · exact hclose

/-- A literal or a name. -/
theorem opens_primary {e : Expr} {x : Terminal}
    (hstart : Grammar.standardExprStart x.kind = some .primary)
    (h : ∀ {c : Cursor} {rest : List Terminal}, c.ahead = x :: rest →
      Takes c primary rest fun e' => e'.unplaced = e.unplaced) : Opens e .primary [x] := by
  refine opens_of_head fun hn hc _ => .peekKind ?_
  rw [show Grammar.standard.exprStart _ = some .primary by rw [Cursor.kind_of_ahead hc]; exact hstart]
  exact h hc

theorem opens_int {n : Int64} {span : Span} (hn : 0 ≤ n) :
    Opens (.int n span) .primary [.integer (toString n.toInt.toNat)] := by
  refine opens_primary rfl fun {c rest} hc => .peek ?_
  have hcurrent := Cursor.current_of_ahead hc
  simp only [Token.kind_of_terminal? hcurrent, Terminal.kind,
    Token.value_of_terminal? hcurrent rfl, Terminal.value, Number.readInt64?_toString hn]
  exact .advance hc fun c' hc' => .pure hc' rfl

theorem opens_float {text : Float → String} {x : Float} {span : Span}
    (hx : Number.readFloat? (text x) = some x) : Opens (.float x span) .primary [.float (text x)] := by
  refine opens_primary rfl fun {c rest} hc => .peek ?_
  have hcurrent := Cursor.current_of_ahead hc
  simp only [Token.kind_of_terminal? hcurrent, Terminal.kind,
    Token.value_of_terminal? hcurrent rfl, Terminal.value, hx]
  exact .advance hc fun c' hc' => .pure hc' rfl

theorem opens_string {s : String} {span : Span} :
    Opens (.string s span) .primary [.string s] := by
  refine opens_primary rfl fun {c rest} hc => .peek ?_
  have hcurrent := Cursor.current_of_ahead hc
  simp only [Token.kind_of_terminal? hcurrent, Terminal.kind,
    Token.value_of_terminal? hcurrent rfl, Terminal.value]
  exact .advance hc fun c' hc' => .pure hc' rfl

theorem opens_symbol {s : String} {span : Span} : Opens (.symbol s span) .primary [.name s] := by
  refine opens_primary rfl fun {c rest} hc => .peek ?_
  have hcurrent := Cursor.current_of_ahead hc
  simp only [Token.kind_of_terminal? hcurrent, Terminal.kind,
    Token.value_of_terminal? hcurrent rfl, Terminal.value]
  exact .advance hc fun c' hc' => .pure hc' rfl

theorem opens_bool {b : Bool} {span : Span} :
    Opens (.bool b span) .primary [.word (if b then .trueWord else .falseWord)] := by
  cases b with
  | true =>
    refine opens_primary rfl fun {c rest} hc => .peek ?_
    simp only [Token.kind_of_terminal? (Cursor.current_of_ahead hc), Terminal.kind, if_true]
    exact .advance hc fun c' hc' => .pure hc' rfl
  | false =>
    refine opens_primary rfl fun {c rest} hc => .peek ?_
    simp only [Token.kind_of_terminal? (Cursor.current_of_ahead hc), Terminal.kind]
    exact .advance hc fun c' hc' => .pure hc' rfl

theorem opens_unary {op : UnaryOp} {e : Expr} {span : Span} {q : Power} {w : List Terminal}
    (h : Opens e q w) (hq : .unary ≤ q) : Opens (.unary op e span) .unary (op.terminal :: w) := by
  refine opens_of_head fun {n c rest} hn hc hrest => .peekKind ?_
  have hkind : c.kind = op.kind := by
    rw [Cursor.kind_of_ahead hc]
    cases op <;> rfl
  rw [show Grammar.standard.exprStart c.kind = some .unary by rw [hkind]; cases op <;> rfl]
  refine .advance hc fun c₁ hc₁ => ?_
  rw [show c.current.kind = op.kind from hkind, op.ofKind?_kind]
  have hadmits : Power.unary.Admits q := by
    revert hq
    unfold Power.Admits
    cases q <;> decide
  refine .bind (h.takes hn hadmits hc₁ (hrest.mono (Power.unary_le_right hq)) hrest) ?_
  intro e' c₂ hc₂ he'
  exact .pure hc₂ (by simp [Expr.unplaced, he'])

theorem opens_array {text : Float → String} {es : List Expr} {span : Span} (hne : es ≠ [])
    (hes : ∀ e ∈ es, Opens e e.level (e.print text)) :
    Opens (.array es span) .primary
      (.mark .openBracket :: (commas (es.map (Expr.print text)) ++ [.mark .closeBracket])) := by
  refine opens_of_head fun hn hc _ => .peekKind ?_
  rw [List.length_append, List.length_singleton] at hn
  rw [Cursor.kind_of_ahead hc]
  rw [List.append_assoc] at hc
  have hstart := noneStarts_print text .closeBracket rfl es
  have hlength := hstart.length_le
  refine .mark hc fun _ c₁ hc₁ => .decline ?_ ?_
  · obtain ⟨e, es, rfl⟩ := List.exists_cons_of_ne_nil hne
    exact hstart.kind_ne hc₁
  · refine .bind (takes_commaSeparated (by decide) hne (takesItems_expr rfl hes (by omega))
      (by omega) hc₁) fun es' c₂ hc₂ hes' => ?_
    exact .mark hc₂ fun _ c₃ hc₃ => .spanFrom fun s => .pure hc₃ (by simp [Expr.unplaced, hes'])

/-- What follows an annotation must not be a `?`. -/
theorem Stops.head?_ne {xs : List Terminal} (h : Stops .weakest xs) :
    xs.head? ≠ some (.mark .question) := by
  intro hhead
  exact absurd (h _ hhead .conditional .conditional rfl) (by decide)

theorem opens_emptyArray {t : TypeExpr} {span : Span} (ht : t.Printable) :
    Opens (.emptyArray t span) .weakest (.mark .openBracket :: .mark .closeBracket :: t.print) := by
  refine opens_of_head fun hn hc hrest => .peekKind ?_
  rw [List.length_cons] at hn
  rw [Cursor.kind_of_ahead hc]
  refine .mark hc fun _ c₁ hc₁ => .accept rfl hc₁ fun c₂ hc₂ => ?_
  refine .bind ((opensType_print ht).takes (by omega) hc₂ hrest.head?_ne) fun t' c₃ hc₃ ht' => ?_
  exact .spanFrom fun s => .pure hc₃ (by simp [Expr.unplaced, ht'])

theorem opens_absent {t : TypeExpr} {span : Span} (ht : t.Printable) :
    Opens (.absent t span) .weakest (.word .noWord :: t.print) := by
  refine opens_of_head fun hn hc hrest => .peekKind ?_
  rw [Cursor.kind_of_ahead hc]
  refine .word hc fun _ c₁ hc₁ => ?_
  refine .bind ((opensType_print ht).takes (by omega) hc₁ hrest.head?_ne) fun t' c₂ hc₂ ht' => ?_
  exact .spanFrom fun s => .pure hc₂ (by simp [Expr.unplaced, ht'])

theorem opens_binary {op : BinaryOp} {l r : Expr} {span : Span} {p q : Power} {w u : List Terminal}
    (hl : Opens l p w) (hp : op.tightness.TakesLeft p) (hr : Opens r q u)
    (hq : op.tightness.TakesRight q) :
    Opens (.binary op l r span) op.tightness (w ++ .mark op.mark :: u) := by
  refine opens_of_continuation hl hp (by cases op <;> decide) op.standardExprFollow_mark ?_
  intro n k c rest l' hl' hn _ hc hrest
  refine .advance hc fun c₁ hc₁ => ?_
  have hpower : (if op.groupsRight then op.tightness.lower else op.tightness) =
      op.tightness.right := by rw [← op.groupsRight_tightness]; rfl
  rw [show c.current.kind = .mark op.mark from Cursor.kind_of_ahead hc, op.ofKind?_mark]
  simp only [hpower]
  refine .bind (hr.takes hn (.inl (Power.takesRight_iff.mp hq)) hc₁ (hrest.mono hq.right_le) hrest) ?_
  intro r' c₂ hc₂ hr'
  exact .pure hc₂ (by simp [Expr.unplaced, hl', hr'])

theorem opens_conditional {test yes no : Expr} {span : Span} {p q r : Power}
    {w u v : List Terminal} (htest : Opens test p w) (hp : Power.conditional.TakesLeft p)
    (hyes : Opens yes r u) (hno : Opens no q v) (hq : Power.conditional.TakesRight q) :
    Opens (.conditional test yes no span) .conditional
      (w ++ .mark .question :: (u ++ .mark .colon :: v)) := by
  refine opens_of_continuation htest hp (by decide) rfl ?_
  intro n k c rest test' htest' hn _ hc hrest
  rw [List.length_append, List.length_cons] at hn
  rw [List.append_assoc, List.cons_append] at hc
  refine .mark hc fun _ c₁ hc₁ => ?_
  refine .bind (hyes.takes_weakest (by omega) rfl hc₁) fun yes' c₂ hc₂ hyes' => ?_
  refine .mark hc₂ fun _ c₃ hc₃ => ?_
  refine .bind (hno.takes (by omega) (.inl (Power.takesRight_iff.mp hq)) hc₃
    (hrest.mono hq.right_le) hrest) fun no' c₄ hc₄ hno' => ?_
  exact .pure hc₄ (by simp [Expr.unplaced, htest', hyes', hno'])

theorem opens_subscript {items index : Expr} {span : Span} {p q : Power} {w u : List Terminal}
    (hitems : Opens items p w) (hp : Power.call.TakesLeft p) (hindex : Opens index q u) :
    Opens (.subscript items index span) .call
      (w ++ .mark .openBracket :: (u ++ [.mark .closeBracket])) := by
  refine opens_of_continuation hitems hp (by decide) rfl ?_
  intro n k c rest items' hitems' hn _ hc _
  rw [List.length_append, List.length_singleton] at hn
  rw [List.append_assoc] at hc
  refine .mark hc fun _ c₁ hc₁ => ?_
  refine .bind (hindex.takes_weakest (by omega) rfl hc₁) fun index' c₂ hc₂ hindex' => ?_
  refine .mark hc₂ fun _ c₃ hc₃ => .spanFrom fun s => .pure hc₃ ?_
  simp [Expr.unplaced, hitems', hindex']

theorem opens_member {object : Expr} {field : String} {chained : Bool} {span : Span} {p : Power}
    {w : List Terminal} (hobject : Opens object p w) (hp : Power.call.TakesLeft p) :
    Opens (.member object field chained span) .call
      (w ++ [.mark (if chained then .questionDot else .dot), .name field]) := by
  refine opens_of_continuation hobject hp (by decide) (by cases chained <;> rfl) ?_
  intro n k c rest object' hobject' _ _ hc _
  refine .advance hc fun c₁ hc₁ => .nameOr hc₁ fun t c₂ ht hc₂ => .pure hc₂ ?_
  rw [show c.current.kind = _ from Cursor.kind_of_ahead hc, ht]
  cases chained <;> simp [Expr.unplaced, hobject', Terminal.kind]

theorem opens_call {text : Float → String} {callee : Expr} {args : List Expr} {span : Span}
    {p : Power} {w : List Terminal} (hcallee : Opens callee p w) (hp : Power.call.TakesLeft p)
    (hargs : ∀ e ∈ args, Opens e e.level (e.print text)) :
    Opens (.call callee args span) .call (w ++ .mark .openParen ::
      (commas (args.map (Expr.print text)) ++ [.mark .closeParen])) := by
  refine opens_of_continuation hcallee hp (by decide) rfl ?_
  intro n k c rest callee' hcallee' hn hk hc _
  rw [List.length_append, List.length_singleton] at hn hk
  rw [List.append_assoc] at hc
  have hstart := noneStarts_print text .closeParen rfl args
  have hlength := hstart.length_le
  refine .mark hc fun _ c₁ hc₁ => ?_
  refine .bind (takes_commaClosed (by decide) hstart (takesItems_expr rfl hargs (by omega))
    (by omega) hc₁) fun args' c₂ hc₂ hargs' => ?_
  refine .mark hc₂ fun _ c₃ hc₃ => .spanFrom fun s => .pure hc₃ ?_
  simp [Expr.unplaced, hcallee', hargs']

/-- **A printed expression opens**, by induction on it. -/
theorem opens_print {text : Float → String} {e : Expr} (he : e.Printable text) :
    Opens e e.level (e.print text) := by
  induction he with
  | int hn => exact opens_int hn
  | float hx => exact opens_float hx
  | string => exact opens_string
  | bool => exact opens_bool
  | symbol => exact opens_symbol
  | @binary op l r span _ _ ihl ihr =>
    obtain ⟨p, hp, hl⟩ := ihl.operand op.tightness.TakesLeft (by cases op <;> decide)
    obtain ⟨q, hq, hr⟩ := ihr.operand op.tightness.TakesRight (by cases op <;> decide)
    exact opens_binary hl hp hr hq
  | unary _ ih =>
    obtain ⟨q, hq, h⟩ := ih.operand (.unary ≤ ·) (by decide)
    exact opens_unary h hq
  | conditional _ _ _ ihtest ihyes ihno =>
    obtain ⟨p, hp, htest⟩ := ihtest.operand Power.conditional.TakesLeft (by decide)
    -- between the marks any operator may stand, so how tight the operand is does not matter
    obtain ⟨r, -, hyes⟩ := ihyes.operand (.weakest < ·) (by decide)
    obtain ⟨q, hq, hno⟩ := ihno.operand Power.conditional.TakesRight (by decide)
    exact opens_conditional htest hp hyes hno hq
  | @array es span hne _ ih =>
    rw [Expr.print, Expr.prints_eq]
    exact opens_array hne ih
  | emptyArray ht => exact opens_emptyArray ht
  | absent ht => exact opens_absent ht
  | subscript _ _ ihitems ihindex =>
    obtain ⟨p, hp, hitems⟩ := ihitems.operand Power.call.TakesLeft (by decide)
    exact opens_subscript hitems hp ihindex
  | member _ ih =>
    obtain ⟨p, hp, hobject⟩ := ih.operand Power.call.TakesLeft (by decide)
    exact opens_member hobject hp
  | @call callee args span _ _ ihcallee ihargs =>
    obtain ⟨p, hp, hcallee⟩ := ihcallee.operand Power.call.TakesLeft (by decide)
    rw [Expr.print, Expr.prints_eq]
    exact opens_call hcallee hp ihargs

end Parse

end Quill
