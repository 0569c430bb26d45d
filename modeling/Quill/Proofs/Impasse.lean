import Quill.Proofs.Closers
import Quill.Proofs.Descent
import Quill.Proofs.Gluing

/-!
# Pairs of marks that no annotation has

Two `>` that are glued are cut apart where a sum ends. Two `<` are not, and neither are two `?`.

Where such a pair is glued within an annotation, `Stuck` says what becomes of the parser: it fails
there, or it stops before a `??`. It stops only behind a whole annotation, and then nothing but `?`
follows.

Results:
* `Glued.exists_cuts`, `Glued.exists_clash`: tokens that can be cut, or can be up to a pair.
* `Stuck.bind`, `Stuck.list` and their like: the rules.
* **`Parse.jams_of_occupies`**: an annotation goes no further than such a pair.
-/

namespace Quill

open Syntax

/-! ## Where the first pair is glued -/

namespace Glued

variable {us : List Token} {w : List Terminal}

/-- Two `>` that are glued can be cut apart. -/
theorem exists_cuts (h : Glued us w) (hno : ∀ u ∈ us, ¬ Setting.IsClash u.kind) :
    ∃ ts, Cuts us ts ∧ Says ts w := by
  induction h with
  | nil => exact ⟨[], .nil, rfl⟩
  | @one u us x xs hu _ ih =>
    obtain ⟨-, hus⟩ := List.forall_mem_cons.mp hno
    obtain ⟨ts, hcuts, hsays⟩ := ih hus
    refine ⟨u :: ts, .keep hcuts, ?_⟩
    rw [Says, List.map_cons, List.map_cons, hu, hsays]
  | @two u us m d xs hm hu _ ih =>
    obtain ⟨hclash, hus⟩ := List.forall_mem_cons.mp hno
    obtain ⟨ts, hcuts, hsays⟩ := ih hus
    have hgreater : m = .greater ∧ d = .shiftRight := by
      cases m <;> cases hm <;> simp_all [Setting.IsClash]
    obtain ⟨rfl, rfl⟩ := hgreater
    refine ⟨_, .cut hu hcuts, ?_⟩
    rw [Says, List.map_cons, List.map_cons, List.map_cons, List.map_cons, hsays]
    rfl

/-- Before the first pair that is not two `>`, all can be cut apart. -/
theorem exists_clash (h : Glued us w) (hfree : ∀ x ∈ w, ¬ Setting.IsClash x.kind)
    (hyes : ∃ u ∈ us, Setting.IsClash u.kind) :
    ∃ vs k more ts v m w', us = vs ++ k :: more ∧ w = v ++ .mark m :: .mark m :: w' ∧
      Cuts vs ts ∧ Says ts v ∧ Glued more w' ∧
      (m = .less ∧ k.kind = .mark .shiftLeft ∨
        m = .question ∧ k.kind = .mark .questionQuestion) := by
  induction h with
  | nil =>
    obtain ⟨u, hu, -⟩ := hyes
    cases hu
  | @one u us x xs hu _ ih =>
    obtain ⟨hx, hxs⟩ := List.forall_mem_cons.mp hfree
    have hrest : ∃ u ∈ us, Setting.IsClash u.kind := by
      obtain ⟨k, hk, hclash⟩ := hyes
      rcases List.mem_cons.mp hk with rfl | hk
      · rw [Token.kind_of_terminal? hu] at hclash
        exact absurd hclash hx
      · exact ⟨k, hk, hclash⟩
    obtain ⟨vs, k, more, ts, v, m, w', rfl, rfl, hcuts, hsays, hmore, hclash⟩ := ih hxs hrest
    refine ⟨u :: vs, k, more, u :: ts, x :: v, m, w', rfl, rfl, .keep hcuts, ?_, hmore, hclash⟩
    rw [Says, List.map_cons, List.map_cons, hu, hsays]
  | @two u us m d xs hm hu h ih =>
    by_cases hgreater : m = .greater
    · subst hgreater
      cases hm
      have hxs : ∀ x ∈ xs, ¬ Setting.IsClash x.kind := fun x hx =>
        hfree x (List.mem_cons_of_mem _ (List.mem_cons_of_mem _ hx))
      have hrest : ∃ u ∈ us, Setting.IsClash u.kind := by
        obtain ⟨k, hk, hclash⟩ := hyes
        rcases List.mem_cons.mp hk with rfl | hk
        · simp [hu, Setting.IsClash] at hclash
        · exact ⟨k, hk, hclash⟩
      obtain ⟨vs, k, more, ts, v, m, w', rfl, rfl, hcuts, hsays, hmore, hclash⟩ := ih hxs hrest
      refine ⟨u :: vs, k, more, _, .mark .greater :: .mark .greater :: v, m, w', rfl, rfl,
        .cut hu hcuts, ?_, hmore, hclash⟩
      rw [Says, List.map_cons, List.map_cons, List.map_cons, List.map_cons, hsays]
      rfl
    · refine ⟨[], u, us, [], [], m, xs, rfl, rfl, .nil, rfl, h, ?_⟩
      cases m <;> cases hm <;> simp_all

end Glued

/-! ## Parsers that come to such a pair -/

theorem Cursor.Faces.kind_eq_end {c e : Cursor} (h : c.Faces e []) : c.kind = e.kind := by
  rw [kind, kind, current, current, h.rest_eq, h.last]

/-- What is behind the next token is the same as well. -/
theorem Cursor.Faces.kind_advance {c e : Cursor} (h : c.Faces e []) :
    c.advance.kind = e.advance.kind := by
  have hrest := h.rest_eq
  have hlast := h.last
  obtain ⟨p, rest, last⟩ := c
  obtain ⟨q, rest', last'⟩ := e
  obtain rfl : rest = rest' := hrest
  obtain rfl : last = last' := hlast
  cases rest <;> rfl

theorem eq_cons_of_cons_eq {l p q : List Token} {x y : Token} (h : y :: l = p ++ x :: q)
    (hne : x ≠ y) : ∃ p', p = y :: p' ∧ l = p' ++ x :: q := by
  cases p with
  | nil => exact absurd (List.cons_eq_cons.mp h).1.symm hne
  | cons z p =>
    obtain ⟨rfl, hl⟩ := List.cons_eq_cons.mp h
    exact ⟨p, rfl, hl⟩

/-- A part of a list with one more behind it stands in the list, or ends with that one. -/
theorem eq_of_concat_eq {l p q : List Token} {x y : Token} (h : l ++ [y] = p ++ x :: q) :
    (∃ q', q = q' ++ [y] ∧ l = p ++ x :: q') ∨ q = [] ∧ x = y ∧ p = l := by
  rcases List.eq_nil_or_concat q with rfl | ⟨q', z, hq⟩
  · obtain ⟨rfl, hy⟩ := List.append_inj' h rfl
    exact .inr ⟨rfl, (List.singleton_inj.mp hy).symm, rfl⟩
  · rw [List.concat_eq_append] at hq
    subst hq
    rw [← List.cons_append, ← List.append_assoc] at h
    obtain ⟨rfl, hy⟩ := List.append_inj' h rfl
    obtain rfl := List.singleton_inj.mp hy
    exact .inl ⟨q', rfl, rfl⟩

namespace Parser

variable {α β : Type} {c e : Cursor} {P Q : Prop}

/-- The run fails; or `P` holds and it stops before what is ahead of the other cursor. -/
def Stuck (e : Cursor) (P : Prop) : EStateM.Result Failure Cursor α → Prop
  | .ok _ c => P ∧ c.Faces e []
  | .error _ _ => True

namespace Stuck

theorem imp {r : EStateM.Result Failure Cursor α} (h : Stuck e P r) (hPQ : P → Q) :
    Stuck e Q r := by
  cases r with
  | ok a c => exact ⟨hPQ h.1, h.2⟩
  | error f c => trivial

theorem pure {a : α} (hP : P) (hc : c.Faces e []) : Stuck e P ((Pure.pure a : Parser α) c) :=
  ⟨hP, hc⟩

theorem bind {p : Parser α} {f : α → Parser β} (h : Stuck e P (p c))
    (hf : P → ∀ a c', c'.Faces e [] → Stuck e Q (f a c')) : Stuck e Q ((p >>= f) c) := by
  cases hp : p c with
  | ok a c' =>
    rw [hp] at h
    rw [bind_of_ok hp]
    exact hf h.1 a c' h.2
  | error d c' =>
    rw [bind_of_error hp]
    trivial

theorem bind_ok {p : Parser α} {f : α → Parser β} {a : α} {c' : Cursor} (h : p c = .ok a c')
    (hf : Stuck e P (f a c')) : Stuck e P ((p >>= f) c) := by
  rwa [bind_of_ok h]

/-- Where another token is wanted, the run fails. -/
theorem expect {kind : TokenKind} {f : Token → Parser β} (hc : c.Faces e []) (hne : e.kind ≠ kind) :
    Stuck e P ((Parser.expect kind >>= f) c) := by
  have hkind : c.kind ≠ kind := hc.kind_eq_end ▸ hne
  refine Stuck.bind (P := False) ?_ False.elim
  change Stuck e False ((if c.kind = kind then advance else unexpected) c)
  rw [if_neg hkind]
  trivial

/-- A list goes no further if an item does not. -/
theorem separated {item : Parser α} {loop : Parser (List α)} (h : Stuck e P (item c))
    (hcomma : e.kind ≠ .mark .comma) : Stuck e P (Round.separated item loop c) := by
  refine h.bind fun hP a c' hc' => ?_
  exact .bind_ok (accept_of_kind_ne (hc'.kind_eq_end ▸ hcomma)) (.pure hP hc')

/-- So does a loop over a list in which one of the items is stuck. -/
theorem list {f : Nat → Parser (List α)} {item : Parser α} {close : TokenKind} {x : Token}
    (hzero : ∀ c, f 0 c = .error .exhausted c)
    (hsucc : ∀ n c, c.kind ≠ close → f (n + 1) c = Round.separated item (f n) c)
    (hcomma : e.kind ≠ .mark .comma) (hclose : e.kind ≠ close) (hshift : close ≠ .mark .shiftRight)
    (hx : x.kind ≠ .mark .comma) {items : List (α × List Token)}
    (hreads : ∀ i ∈ items, ReadsOff e item i.1 i.2)
    (hstarts : ∀ i ∈ items, ∃ y ys, i.2 = y :: ys ∧ y.kind ≠ close)
    (hstuck : ∀ i ∈ items, ∀ ⦃p q : List Token⦄ ⦃c : Cursor⦄, i.2 = p ++ x :: q → c.Faces e p →
      Stuck e P (item c)) :
    ∀ {n : Nat} {c : Cursor} {w p q : List Token}, CommaJoined (items.map (·.2)) w →
      w = p ++ x :: q → c.Faces e p → Stuck e P (f n c) := by
  induction items with
  | nil =>
    intro n c w p q hw hsplit _
    cases hw
    simp at hsplit
  | cons i items ih =>
    intro n c w p q hw hsplit hc
    obtain ⟨hread, hreads⟩ := List.forall_mem_cons.mp hreads
    obtain ⟨⟨y, ys, hy, hkind⟩, hstarts⟩ := List.forall_mem_cons.mp hstarts
    obtain ⟨hitem, hstuck⟩ := List.forall_mem_cons.mp hstuck
    cases n with
    | zero =>
      rw [hzero]
      trivial
    | succ n =>
      have hopen : c.kind ≠ close := by
        cases p with
        | nil => exact hc.kind_eq_end ▸ hclose
        | cons z p =>
          rw [List.map_cons, hy] at hw
          obtain ⟨zs, rfl⟩ := hw.exists_head
          obtain ⟨rfl, -⟩ := List.cons_eq_cons.mp hsplit
          exact hc.kind_ne hkind hshift
      rw [hsucc n c hopen]
      cases items with
      | nil =>
        cases hw
        exact (hitem hsplit hc).separated hcomma
      | cons j items =>
        cases hw with
        | @more _ _ u _ comma hcommaKind hw =>
          have hne : x ≠ comma := fun heq => hx (heq ▸ hcommaKind)
          rcases List.append_eq_append_iff.mp hsplit with ⟨s, rfl, hs⟩ | ⟨s, hs, htail⟩
          · obtain ⟨s, rfl, hu⟩ := eq_cons_of_cons_eq hs hne
            obtain ⟨c₁, hrun, hc₁⟩ := hread hc (Cursor.unasked_cons (by simp [hcommaKind]))
            obtain ⟨-, -, hc₂⟩ := hc₁.pass (by simp [hcommaKind])
            have hkind₁ : c₁.kind = .mark .comma :=
              (hc₁.kind_eq (by simp [hcommaKind])).trans hcommaKind
            refine .bind_ok hrun (.bind_ok (accept_of_kind hkind₁) ?_)
            exact (ih hreads hstarts hstuck hw hu hc₂).bind fun hP _ _ hc' => .pure hP hc'
          · obtain ⟨s, rfl, -⟩ := eq_cons_of_cons_eq htail hne.symm
            exact (hitem hs hc).separated hcomma

end Stuck

end Parser

namespace Parse

open Quill.Parser

variable {e c : Cursor} {t : TypeExpr} {w : List Token}

/-- The token `x` is glued to the next one: ahead of the cursor is what the two are taken for. -/
def Clashing (x : Token) (e : Cursor) : Prop :=
  x.kind = .mark .less ∧ e.kind = .mark .shiftLeft ∨
    x.kind = .mark .question ∧ e.kind = .mark .questionQuestion

theorem Clashing.kind_ne {x : Token} {kind : TokenKind} (h : Clashing x e)
    (hless : kind ≠ .mark .less) (hquestion : kind ≠ .mark .question) : x.kind ≠ kind := by
  obtain ⟨hx, -⟩ | ⟨hx, -⟩ := h
  · exact hx ▸ hless.symm
  · exact hx ▸ hquestion.symm

theorem Clashing.ne {x y : Token} {kind : TokenKind} (h : Clashing x e) (hy : y.kind = kind)
    (hless : kind ≠ .mark .less) (hquestion : kind ≠ .mark .question) : x ≠ y := by
  rintro rfl
  exact h.kind_ne hless hquestion hy

theorem Clashing.end_ne {x : Token} {kind : TokenKind} (h : Clashing x e)
    (hshift : kind ≠ .mark .shiftLeft) (hquestion : kind ≠ .mark .questionQuestion) :
    e.kind ≠ kind := by
  obtain ⟨-, he⟩ | ⟨-, he⟩ := h
  · exact he ▸ hshift.symm
  · exact he ▸ hquestion.symm

/-- Behind the start of an annotation, a `??` is left alone. -/
theorem stuck_of_head {P : Prop} {n : Nat} {power : Power}
    (h : Stuck e P (typeHead .standard (typeExpr .standard n .weakest) n c))
    (hP : P → e.kind ≠ .mark .question) : Stuck e P (typeExpr .standard (n + 1) power c) := by
  refine h.bind fun hp t c' hc' => ?_
  cases n with
  | zero => trivial
  | succ n =>
    rw [typeTail_of_kind_ne (hc'.kind_eq_end ▸ hP hp)]
    exact ⟨hp, hc'⟩

/-- Annotations in a list, of which one goes no further. -/
theorem stuck_items {f : Nat → Parser (List TypeExpr)} (close : TokenKind) {n m : Nat} {x : Token}
    {items : List (TypeExpr × List Token)} {p q : List Token}
    (hzero : ∀ c, f 0 c = .error .exhausted c)
    (hsucc : ∀ m c, c.kind ≠ close →
      f (m + 1) c = Round.separated (typeExpr .standard n .weakest) (f m) c)
    (hclose : Grammar.standardTypeStart close = none) (hshift : close ≠ .mark .shiftRight)
    (hend : e.kind ≠ close) (hitems : ∀ i ∈ items, i.1.Occupies i.2) (hx : Clashing x e)
    (hstuck : ∀ i ∈ items, ∀ {p q : List Token} {c : Cursor}, i.2 = p ++ x :: q → i.2.length < n →
      c.Faces e p → Stuck e (e.kind = .mark .questionQuestion) (typeExpr .standard n .weakest c))
    (hw : CommaJoined (items.map (·.2)) w) (hn : w.length < n) (hsplit : w = p ++ x :: q)
    (hc : c.Faces e p) : Stuck e (e.kind = .mark .questionQuestion) (f m c) := by
  have hstarts : ∀ i ∈ items, ∃ y ys, i.2 = y :: ys ∧ y.kind ≠ close := by
    intro i hi
    obtain ⟨y, ys, hys, hstart⟩ := (hitems i hi).exists_head
    refine ⟨y, ys, hys, fun hkind => ?_⟩
    rw [hkind, hclose] at hstart
    cases hstart
  have hlength : ∀ i ∈ items, i.2.length ≤ w.length := fun i hi =>
    hw.length_le i.2 (List.mem_map_of_mem hi)
  exact Stuck.list hzero hsucc (hx.end_ne (by decide) (by decide)) hend hshift
    (hx.kind_ne (by decide) (by decide))
    (readsOff_of_opensOff hw (fun i hi => opensOff_of_occupies (hitems i hi)) hn) hstarts
    (fun i hi p q c hi' hc' => hstuck i hi hi' ((hlength i hi).trans_lt hn) hc') hw hsplit hc

/-- At a pair that is glued, an annotation of these tokens goes no further. Only a `??` may be left
behind what is read, and then nothing but `?` follows in the annotation. -/
def Jams (e : Cursor) (w : List Token) : Prop :=
  ∀ ⦃p q : List Token⦄ ⦃x : Token⦄ ⦃n : Nat⦄ ⦃power : Power⦄ ⦃c : Cursor⦄, w = p ++ x :: q →
    Clashing x e → w.length < n → ¬ Power.call ≤ power → c.Faces e p →
    Stuck e (e.kind = .mark .questionQuestion ∧ ∀ z ∈ q, z.kind = .mark .question)
      (typeExpr .standard n power c)

theorem not_call_le_weakest : ¬ Power.call ≤ Power.weakest := by decide

/-- An annotation inside of others goes no further. -/
theorem Jams.item {n : Nat} {x : Token} {p q : List Token} (h : Jams e w) (hsplit : w = p ++ x :: q)
    (hx : Clashing x e) (hn : w.length < n) (hc : c.Faces e p) :
    Stuck e (e.kind = .mark .questionQuestion) (typeExpr .standard n .weakest c) :=
  (h hsplit hx hn not_call_le_weakest hc).imp And.left

theorem jams_array {o y : Token} (ho : o.kind = .mark .openBracket)
    (hy : y.kind = .mark .closeBracket) (h : Jams e w) : Jams e (o :: (w ++ [y])) := by
  intro p q x n power c hsplit hx hn _ hc
  obtain ⟨p, rfl, htail⟩ := eq_cons_of_cons_eq hsplit (hx.ne ho (by decide) (by decide))
  obtain ⟨q, rfl, rfl⟩ | ⟨-, hxy, -⟩ := eq_of_concat_eq htail
  · simp only [List.length_cons, List.length_append] at hn
    obtain ⟨n, rfl⟩ : ∃ k, n = k + 1 := ⟨n - 1, by omega⟩
    obtain ⟨hkind, hopen, -, hc₁⟩ := hc.expect ho (by decide)
    refine (stuck_of_head (P := False) ?_ False.elim).imp False.elim
    rw [typeHead, bind_of_ok (peekKind_ok c), hkind]
    change Stuck e False (arrayType (typeExpr .standard n .weakest) c)
    refine .bind_ok hopen ((h.item rfl hx (by simp; omega) hc₁).bind fun _ _ c' hc' => ?_)
    exact .expect hc' (hx.end_ne (by decide) (by decide))
  · exact absurd hxy (hx.ne hy (by decide) (by decide))

theorem jams_optional {y : Token} (ht : t.Occupies w) (hy : y.kind = .mark .question)
    (h : Jams e w) : Jams e (w ++ [y]) := by
  intro p q x n power c hsplit hx hn hpower hc
  rw [List.length_append] at hn
  obtain ⟨q, rfl, rfl⟩ | ⟨rfl, rfl, rfl⟩ := eq_of_concat_eq hsplit
  · refine (h rfl hx (by omega) hpower hc).imp fun h => ⟨h.1, ?_⟩
    exact List.forall_mem_append.mpr ⟨h.2, List.forall_mem_singleton.mpr hy⟩
  · -- the base is read whole, and the mark behind it is not a `?`
    have he : e.kind = .mark .questionQuestion := by
      obtain ⟨hless, -⟩ | ⟨-, he⟩ := hx
      · rw [hy] at hless
        cases hless
      · exact he
    have hfaces : c.Faces e (p ++ []) := by rwa [List.append_nil]
    obtain ⟨c', hrun, -, hc'⟩ := (opensOff_of_occupies ht).read hpower
      (Nat.lt_of_succ_lt hn) hfaces (Cursor.unasked_nil (by simp [he]))
    rw [hrun]
    exact ⟨⟨he, List.forall_mem_nil _⟩, hc'⟩

theorem jams_sum {o y : Token} {items : List (TypeExpr × List Token)} (ho : o.kind = .mark .less)
    (hitems : ∀ i ∈ items, i.1.Occupies i.2) (hw : CommaJoined (items.map (·.2)) w)
    (hy : y.kind = .mark .greater) (h : ∀ i ∈ items, Jams e i.2) : Jams e (o :: (w ++ [y])) := by
  intro p q x n power c hsplit hx hn _ hc
  obtain ⟨n, rfl⟩ : ∃ k, n = k + 1 := ⟨n - 1, by omega⟩
  refine (stuck_of_head (P := False) ?_ False.elim).imp False.elim
  cases p with
  | nil =>
    -- no annotation starts with a `<<`
    obtain ⟨rfl, -⟩ := List.cons_eq_cons.mp hsplit
    have he : e.kind = .mark .shiftLeft := by
      obtain ⟨-, he⟩ | ⟨hquestion, -⟩ := hx
      · exact he
      · rw [ho] at hquestion
        cases hquestion
    rw [typeHead, bind_of_ok (peekKind_ok c), hc.kind_eq_end, he]
    trivial
  | cons z p =>
    obtain ⟨rfl, htail⟩ := List.cons_eq_cons.mp hsplit
    obtain ⟨q, rfl, rfl⟩ | ⟨-, hxy, -⟩ := eq_of_concat_eq htail
    · obtain ⟨hkind, hopen, -, hc₁⟩ := hc.expect ho (by decide)
      simp only [List.length_cons, List.length_append] at hn
      rw [typeHead, bind_of_ok (peekKind_ok c), hkind]
      change Stuck e False (sumType (typeExpr .standard n .weakest) n c)
      refine .bind_ok hopen ((stuck_items (f := commaSeparated _) .eof (fun _ => rfl)
        (fun _ _ _ => rfl) rfl (by decide) (hx.end_ne (by decide) (by decide)) hitems hx ?_ hw
        (by simp; omega) rfl hc₁).bind fun he _ c' hc' => ?_)
      · exact fun i hi {p q c} hi' hlength hc' => (h i hi).item hi' hx hlength hc'
      · have hkind' : c'.kind ≠ .mark .shiftRight := by simp [hc'.kind_eq_end, he]
        refine .bind_ok (splitShift_ok c') ?_
        rw [Cursor.splitShift_of_kind hkind']
        exact .expect hc' (by simp [he])
    · exact absurd hxy (hx.ne hy (by decide) (by decide))

section Function

variable {o y arrow : Token} {params : List (TypeExpr × List Token)} {u : List Token}

/-- A function annotation with the pair among its parameters. -/
theorem stuck_params {n : Nat} {x : Token} {p q : List Token} (ho : o.kind = .mark .openParen)
    (hparams : ∀ i ∈ params, i.1.Occupies i.2) (hw : CommaJoined (params.map (·.2)) w)
    (h : ∀ i ∈ params, Jams e i.2) (hsplit : w = p ++ x :: q) (hx : Clashing x e)
    (hn : w.length < n) (hc : c.Faces e (o :: p)) :
    Stuck e False (functionType (typeExpr .standard n .weakest) n c) := by
  have hround : ∀ m c, c.kind ≠ .mark .closeParen →
      commaClosed (.mark .closeParen) (typeExpr .standard n .weakest) (m + 1) c =
        Round.separated (typeExpr .standard n .weakest)
          (commaClosed (.mark .closeParen) (typeExpr .standard n .weakest) m) c := by
    intro m c hopen
    rw [commaClosed, Round.closed, bind_of_ok (peekKind_ok c), if_neg hopen]
  obtain ⟨-, hopen, -, hc₁⟩ := hc.expect ho (by decide)
  refine .bind_ok hopen ((stuck_items (f := commaClosed _ _) (.mark .closeParen) (fun _ => rfl)
    hround rfl (by decide) (hx.end_ne (by decide) (by decide)) hparams hx ?_ hw hn hsplit
    hc₁).bind fun he _ c' hc' => ?_)
  · exact fun i hi {p q c} hi' hlength hc' => (h i hi).item hi' hx hlength hc'
  · exact .expect hc' (by simp [he])

/-- A function annotation with the pair in its result. -/
theorem stuck_result {P : Prop} {n : Nat} {p : List Token} (ho : o.kind = .mark .openParen)
    (hparams : ∀ i ∈ params, i.1.Occupies i.2) (hw : CommaJoined (params.map (·.2)) w)
    (hy : y.kind = .mark .closeParen) (harrow : arrow.kind = .mark .arrow) (hn : w.length < n)
    (hc : c.Faces e (o :: (w ++ y :: arrow :: p)))
    (h : ∀ c', c'.Faces e p → Stuck e P (typeExpr .standard n .weakest c')) :
    Stuck e P (functionType (typeExpr .standard n .weakest) n c) := by
  have hstarts : ∀ i ∈ params, ∃ x xs, i.2 = x :: xs ∧ x.kind ≠ y.kind := by
    intro i hi
    obtain ⟨x, xs, hxs, hstart⟩ := (hparams i hi).exists_head
    refine ⟨x, xs, hxs, fun hkind => ?_⟩
    rw [hkind, hy] at hstart
    cases hstart
  obtain ⟨-, hopen, -, hc₁⟩ := hc.expect ho (by decide)
  obtain ⟨c₂, hrun, hc₂⟩ := run_commaClosed (n := n) (by simp [hy]) (by simp [hy])
    (by simp [hy]) (by simp [hy]) hstarts
    (readsOff_of_opensOff (n := n) hw (fun i hi => opensOff_of_occupies (hparams i hi)) hn) hw
    (Nat.lt_of_le_of_lt (count_le_of_occupies hw hparams) hn) hc₁
  rw [hy] at hrun
  obtain ⟨-, hclose, -, hc₃⟩ := hc₂.expect hy (by decide)
  obtain ⟨-, hto, -, hc₄⟩ := hc₃.expect harrow (by decide)
  refine .bind_ok hopen (.bind_ok hrun (.bind_ok hclose (.bind_ok hto ?_)))
  exact (h _ hc₄).bind fun hP _ c' hc' => .bind_ok (spanFrom_ok _ c') (.pure hP hc')

theorem jams_function (ho : o.kind = .mark .openParen) (hparams : ∀ i ∈ params, i.1.Occupies i.2)
    (hw : CommaJoined (params.map (·.2)) w) (hy : y.kind = .mark .closeParen)
    (harrow : arrow.kind = .mark .arrow) (h : ∀ i ∈ params, Jams e i.2) (hu : Jams e u) :
    Jams e (o :: (w ++ y :: arrow :: u)) := by
  intro p q x n power c hsplit hx hn _ hc
  obtain ⟨n, rfl⟩ : ∃ k, n = k + 1 := ⟨n - 1, by omega⟩
  obtain ⟨p, rfl, htail⟩ := eq_cons_of_cons_eq hsplit (hx.ne ho (by decide) (by decide))
  simp only [List.length_cons, List.length_append] at hn
  have hhead : typeHead .standard (typeExpr .standard n .weakest) n c =
      functionType (typeExpr .standard n .weakest) n c := by
    rw [typeHead, bind_of_ok (peekKind_ok c), (hc.expect ho (by decide)).1]
    rfl
  have hxy : x ≠ y := hx.ne hy (by decide) (by decide)
  rcases List.append_eq_append_iff.mp htail with ⟨s, rfl, hs⟩ | ⟨s, rfl, hs⟩
  · obtain ⟨s, rfl, hto⟩ := eq_cons_of_cons_eq hs hxy
    obtain ⟨s, rfl, rfl⟩ := eq_cons_of_cons_eq hto (hx.ne harrow (by decide) (by decide))
    refine stuck_of_head ?_ fun hP => by simp [hP.1]
    rw [hhead]
    exact stuck_result ho hparams hw hy harrow (by omega) hc fun c' hc' =>
      hu rfl hx (by simp at hn ⊢; omega) not_call_le_weakest hc'
  · obtain ⟨s, rfl, -⟩ := eq_cons_of_cons_eq hs hxy.symm
    refine (stuck_of_head (P := False) ?_ False.elim).imp False.elim
    rw [hhead]
    exact stuck_params ho hparams hw h rfl hx (by omega) hc

end Function

/-- **At a pair that is glued an annotation goes no further.** -/
theorem jams_of_occupies (h : t.Occupies w) : Jams e w := by
  induction h with
  | @named y hy =>
    intro p q x n power c hsplit hx _ _ _
    obtain ⟨p, -, hnil⟩ := eq_cons_of_cons_eq hsplit (hx.ne hy (by decide) (by decide))
    simp at hnil
  | array ho _ hy ih => exact jams_array ho hy ih
  | optional ht _ hy ih => exact jams_optional ht hy ih
  | sum ho _ hitems hw hy ih => exact jams_sum ho hitems hw hy ih
  | function ho hparams hw hy harrow _ ihparams ihresult =>
    exact jams_function ho hparams hw hy harrow ihparams ihresult

end Parse

end Quill
