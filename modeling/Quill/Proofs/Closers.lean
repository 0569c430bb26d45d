import Quill.Proofs.Composition
import Quill.Proofs.Taking

/-!
# Ends of sums that are glued

The end of a sum is a `>`, and two that stand side by side are scanned as one `>>`. The parser cuts
it when the inner sum ends, and leaves the second half to whatever ends next: the sum around it, or
one further out, behind a `]`, a `?` or the result of a function.

`TypeExpr.Occupies t ts` says that the annotation `t` stands in the tokens `ts`, of which every `>`
is one of its own: the span of each part starts where its first token does, and ends where its last
does. A cursor faces these tokens even if some of them are still glued (`Cursor.Faces`). It shows
only where a sum ends, and there the two cases come to the same: what is passed is a `>`, and the
others are faced.

Results:
* `Cursor.Faces.pass`, `Cursor.Faces.sumEnd`: what passing a token leaves.
* `opens_of_occupies`: an annotation is read where the tokens that it stands in are faced, by
  induction on it.
* **`parseType_cuts`**: glued or not, tokens are read as the same annotation.
-/

namespace Quill

open Syntax

/-! ## Annotations in their tokens -/

/-- The tokens of the items, with a comma between each two of them. -/
inductive CommaJoined : List (List Token) → List Token → Prop
  | nil : CommaJoined [] []
  | one {w : List Token} : CommaJoined [w] w
  | more {w v u : List Token} {ws : List (List Token)} {comma : Token}
      (hcomma : comma.kind = .mark .comma) (h : CommaJoined (v :: ws) u) :
      CommaJoined (w :: v :: ws) (w ++ comma :: u)

/-- The annotation stands in the tokens: each part of it from the start of its first token to the
end of its last. Sums are not empty, and functions no base of an optional type. -/
inductive Syntax.TypeExpr.Occupies : TypeExpr → List Token → Prop
  | named {x : Token} (hx : x.kind = .identifier) : Occupies (.named x.value x.span) [x]
  | array {x y : Token} {t : TypeExpr} {w : List Token} (hx : x.kind = .mark .openBracket)
      (h : t.Occupies w) (hy : y.kind = .mark .closeBracket) :
      Occupies (.array t ⟨x.span.start, y.span.stop⟩) (x :: (w ++ [y]))
  | optional {t : TypeExpr} {y : Token} {w : List Token} (h : t.Occupies w)
      (hbase : t.isFunction = false) (hy : y.kind = .mark .question) :
      Occupies (.optional t ⟨t.span.start, y.span.stop⟩) (w ++ [y])
  | sum {x y : Token} {items : List (TypeExpr × List Token)} {w : List Token}
      (hx : x.kind = .mark .less) (hne : items ≠ []) (h : ∀ i ∈ items, Occupies i.1 i.2)
      (hw : CommaJoined (items.map (·.2)) w) (hy : y.kind = .mark .greater) :
      Occupies (.sum (items.map (·.1)) ⟨x.span.start, y.span.stop⟩) (x :: (w ++ [y]))
  | function {x y arrow : Token} {params : List (TypeExpr × List Token)} {r : TypeExpr}
      {w u : List Token} (hx : x.kind = .mark .openParen)
      (hparams : ∀ i ∈ params, Occupies i.1 i.2) (hw : CommaJoined (params.map (·.2)) w)
      (hy : y.kind = .mark .closeParen) (harrow : arrow.kind = .mark .arrow)
      (hresult : r.Occupies u) :
      Occupies (.function (params.map (·.1)) r ⟨x.span.start, r.span.stop⟩)
        (x :: (w ++ y :: arrow :: u))

theorem CommaJoined.length_le {ws : List (List Token)} {u : List Token} (h : CommaJoined ws u) :
    ∀ w ∈ ws, w.length ≤ u.length := by
  induction h with
  | nil => exact List.forall_mem_nil _
  | one => exact List.forall_mem_singleton.mpr (Nat.le_refl _)
  | more _ _ ih =>
    refine List.forall_mem_cons.mpr ⟨?_, fun w hw => ?_⟩
    · simp
    · have := ih w hw
      simp only [List.length_append, List.length_cons]
      omega

theorem CommaJoined.count_le {ws : List (List Token)} {u : List Token} (h : CommaJoined ws u)
    (hne : ∀ w ∈ ws, w ≠ []) : ws.length ≤ u.length := by
  induction h with
  | nil => exact Nat.le_refl _
  | one => exact List.length_pos_iff.mpr (hne _ List.mem_cons_self)
  | more _ _ ih =>
    have htail := ih fun w hw => hne w (List.mem_cons_of_mem _ hw)
    simp only [List.length_append, List.length_cons] at htail ⊢
    omega

theorem CommaJoined.exists_head {x : Token} {xs u : List Token} {ws : List (List Token)}
    (h : CommaJoined ((x :: xs) :: ws) u) : ∃ ys, u = x :: ys := by
  cases h with
  | one => exact ⟨xs, rfl⟩
  | more => exact ⟨_, rfl⟩

/-- An annotation starts with a token that starts annotations. -/
theorem Syntax.TypeExpr.Occupies.exists_head {t : TypeExpr} {ts : List Token} (h : t.Occupies ts) :
    ∃ x xs, ts = x :: xs ∧ (Grammar.standardTypeStart x.kind).isSome := by
  induction h with
  | named hx | array hx | sum hx | function hx => exact ⟨_, _, rfl, by rw [hx]; rfl⟩
  | optional _ _ _ ih =>
    obtain ⟨x, xs, rfl, hx⟩ := ih
    exact ⟨x, _, rfl, hx⟩

theorem Syntax.TypeExpr.Occupies.ne_nil {t : TypeExpr} {ts : List Token} (h : t.Occupies ts) :
    ts ≠ [] := by
  obtain ⟨x, xs, rfl, -⟩ := h.exists_head
  exact List.cons_ne_nil x xs

/-! ## Where the tokens are faced -/

/-- The cursor stands before the tokens, some of which may be glued; behind them is what is ahead of
the other cursor. -/
structure Cursor.Faces (c e : Cursor) (ts : List Token) : Prop where
  last : c.last = e.last
  rest : ∃ us, Cuts us ts ∧ c.rest = us ++ e.rest

/-- No `?` follows, where the tokens are faced. -/
def Cursor.Unasked (e : Cursor) (ts : List Token) : Prop :=
  ∀ c : Cursor, c.Faces e ts → c.kind ≠ .mark .question

namespace Cursor

variable {c e : Cursor} {x : Token} {ts : List Token}

namespace Faces

/-- Behind the tokens, nothing is left to be cut. -/
theorem rest_eq (h : c.Faces e []) : c.rest = e.rest := by
  obtain ⟨us, hus, hrest⟩ := h.rest
  cases hus
  exact hrest

/-- Behind a token that is there as it is, the others are faced. -/
theorem advance_of_rest {us : List Token} (hlast : c.last = e.last) (hus : Cuts us ts)
    (hrest : c.rest = x :: (us ++ e.rest)) :
    c.advance.previousEnd = x.span.stop ∧ c.advance.Faces e ts := by
  rw [advance, hrest]
  exact ⟨rfl, hlast, us, hus, rfl⟩

/-- A token that ends no sum is there as it is. -/
theorem pass (h : c.Faces e (x :: ts)) (hx : x.kind ≠ .mark .greater) :
    c.current = x ∧ c.advance.previousEnd = x.span.stop ∧ c.advance.Faces e ts := by
  obtain ⟨hlast, us, hus, hrest⟩ := h
  cases hus with
  | cut => exact absurd rfl hx
  | keep hus =>
    refine ⟨?_, advance_of_rest hlast hus hrest⟩
    rw [current, hrest, List.cons_append, List.headD_cons]

theorem kind_eq (h : c.Faces e (x :: ts)) (hx : x.kind ≠ .mark .greater) : c.kind = x.kind := by
  rw [kind, (h.pass hx).1]

theorem expect {m : Mark} (h : c.Faces e (x :: ts)) (hx : x.kind = .mark m)
    (hm : Mark.greater ≠ m) :
    c.kind = .mark m ∧ Parser.expect (.mark m) c = .ok x c.advance ∧
      c.advance.previousEnd = x.span.stop ∧ c.advance.Faces e ts := by
  have hne : x.kind ≠ .mark .greater := fun hkind => hm (TokenKind.mark.inj (hkind.symm.trans hx))
  have hkind : c.kind = .mark m := (h.kind_eq hne).trans hx
  obtain ⟨hcurrent, hbehind⟩ := h.pass hne
  exact ⟨hkind, hcurrent ▸ Parser.expect_of_kind hkind, hbehind⟩

/-- A `>` may be half of a `>>`, and is nothing else. -/
theorem kind_ne {k : TokenKind} (h : c.Faces e (x :: ts)) (hx : x.kind ≠ k)
    (hk : k ≠ .mark .shiftRight) : c.kind ≠ k := by
  obtain ⟨-, us, hus, hrest⟩ := h
  rw [kind, current, hrest]
  cases hus with
  | keep => exact hx
  | cut hshift => exact fun hkind => hk (hkind.symm.trans hshift)

/-- **At the end of a sum** a `>` is passed, which may have to be cut off first; its other half is
then a token of its own. -/
theorem sumEnd (h : c.Faces e (x :: ts)) (hx : x.kind = .mark .greater) :
    c.splitShift.kind = .mark .greater ∧
      c.splitShift.advance.previousEnd = x.span.stop ∧ c.splitShift.advance.Faces e ts := by
  obtain ⟨hlast, us, hus, hrest⟩ := h
  cases hus with
  | keep hus =>
    have hkind : c.kind = .mark .greater := by
      rw [kind, current, hrest]
      exact hx
    rw [splitShift_of_kind (by simp [hkind])]
    exact ⟨hkind, advance_of_rest hlast hus hrest⟩
  | @cut t us ts ht hus =>
    obtain ⟨kind, value, start, stop⟩ := t
    obtain rfl : kind = .mark .shiftRight := ht
    have hsplit : c.splitShift = ⟨c.previousEnd, ⟨.mark .greater, ">", ⟨start, start.succ⟩⟩
        :: ⟨.mark .greater, ">", ⟨start.succ, stop⟩⟩ :: (us ++ e.rest), c.last⟩ := by
      rw [splitShift, hrest, List.cons_append]
    rw [hsplit]
    exact ⟨rfl, rfl, hlast, _ :: us, .keep hus, rfl⟩

end Faces

theorem unasked_cons (hx : x.kind ≠ .mark .question) : e.Unasked (x :: ts) :=
  fun _ h => h.kind_ne hx (by decide)

theorem unasked_nil (he : e.kind ≠ .mark .question) : e.Unasked [] := by
  intro c h
  have hcurrent : c.current = e.current := by
    rw [current, current, h.rest_eq, h.last]
  rwa [kind, hcurrent]

end Cursor

/-! ## Reading an annotation -/

namespace Parser

variable {α β : Type}

/-- The parser reads the item off its tokens, wherever no `?` follows them. -/
def ReadsOff (e : Cursor) (item : Parser α) (a : α) (w : List Token) : Prop :=
  ∀ ⦃c : Cursor⦄ ⦃ts : List Token⦄, c.Faces e (w ++ ts) → e.Unasked ts →
    ∃ c', item c = .ok a c' ∧ c'.Faces e ts

variable {e c : Cursor} {item : Parser α} {items : List (α × List Token)} {i : α × List Token}
  {w ts : List Token} {close : Token}

/-- An item and what follows it: a comma and the other items, or the end of the list. -/
theorem run_item {f : α → Bool → Parser β} (hitem : ReadsOff e item i.1 i.2)
    (hw : CommaJoined ((i :: items).map (·.2)) w) (hcomma : close.kind ≠ .mark .comma)
    (hquestion : close.kind ≠ .mark .question) (hc : c.Faces e (w ++ close :: ts)) :
    ∃ c', items = [] ∧ (item >>= fun a => accept (.mark .comma) >>= f a) c = f i.1 false c' ∧
        c'.Faces e (close :: ts) ∨
      items ≠ [] ∧ (item >>= fun a => accept (.mark .comma) >>= f a) c = f i.1 true c' ∧
        ∃ u, CommaJoined (items.map (·.2)) u ∧ c'.Faces e (u ++ close :: ts) := by
  cases items with
  | nil =>
    cases hw
    obtain ⟨c₁, hi, hc₁⟩ := hitem hc (Cursor.unasked_cons hquestion)
    have hkind := hc₁.kind_ne hcomma (by decide)
    refine ⟨c₁, .inl ⟨rfl, ?_, hc₁⟩⟩
    rw [bind_of_ok hi, bind_of_ok (accept_of_kind_ne hkind)]
  | cons j items =>
    cases hw with
    | @more _ _ u _ comma hcomma hw =>
      rw [List.append_assoc] at hc
      obtain ⟨c₁, hi, hc₁⟩ := hitem hc (Cursor.unasked_cons (by simp [hcomma]))
      have hkind := hc₁.kind_eq (by simp [hcomma])
      refine ⟨c₁.advance, .inr ⟨List.cons_ne_nil _ _, ?_, u, hw, (hc₁.pass (by simp [hcomma])).2.2⟩⟩
      rw [bind_of_ok hi, bind_of_ok (accept_of_kind (hkind.trans hcomma))]

theorem run_commaSeparated (hcomma : close.kind ≠ .mark .comma)
    (hquestion : close.kind ≠ .mark .question) : ∀ {n : Nat} {c : Cursor} {w : List Token},
    items ≠ [] → (∀ i ∈ items, ReadsOff e item i.1 i.2) → CommaJoined (items.map (·.2)) w →
    items.length ≤ n → c.Faces e (w ++ close :: ts) →
    ∃ c', commaSeparated item n c = .ok (items.map (·.1)) c' ∧ c'.Faces e (close :: ts) := by
  induction items with
  | nil => exact fun hne => absurd rfl hne
  | cons i items ih =>
    intro n c w _ hitems hw hn hc
    obtain ⟨hitem, hitems⟩ := List.forall_mem_cons.mp hitems
    obtain ⟨n, rfl⟩ : ∃ k, n = k + 1 := ⟨n - 1, by simp at hn; omega⟩
    obtain ⟨c₁, ⟨rfl, hrun, hc₁⟩ | ⟨hne, hrun, u, hu, hc₁⟩⟩ :=
      run_item (f := fun a more =>
        if more then commaSeparated item n >>= fun as => pure (a :: as) else pure [a])
        hitem hw hcomma hquestion hc
    · exact ⟨c₁, hrun, hc₁⟩
    · obtain ⟨c₂, hrest, hc₂⟩ := ih hne hitems hu (by simpa using hn) hc₁
      exact ⟨c₂, hrun.trans (bind_of_ok hrest), hc₂⟩

theorem run_commaClosed (hcomma : close.kind ≠ .mark .comma)
    (hquestion : close.kind ≠ .mark .question) (hgreater : close.kind ≠ .mark .greater)
    (hshift : close.kind ≠ .mark .shiftRight) : ∀ {n : Nat} {c : Cursor} {w : List Token},
    (∀ i ∈ items, ∃ x xs, i.2 = x :: xs ∧ x.kind ≠ close.kind) →
    (∀ i ∈ items, ReadsOff e item i.1 i.2) → CommaJoined (items.map (·.2)) w →
    items.length < n → c.Faces e (w ++ close :: ts) →
    ∃ c', commaClosed close.kind item n c = .ok (items.map (·.1)) c' ∧
      c'.Faces e (close :: ts) := by
  induction items with
  | nil =>
    intro n c w _ _ hw hn hc
    cases hw
    obtain ⟨n, rfl⟩ : ∃ k, n = k + 1 := ⟨n - 1, by simp at hn; omega⟩
    refine ⟨c, ?_, hc⟩
    rw [commaClosed, Round.closed, bind_of_ok (peekKind_ok c), if_pos (hc.kind_eq hgreater)]
    rfl
  | cons i items ih =>
    intro n c w hstarts hitems hw hn hc
    obtain ⟨hitem, hitems⟩ := List.forall_mem_cons.mp hitems
    obtain ⟨⟨x, xs, hx, hkind⟩, hstarts⟩ := List.forall_mem_cons.mp hstarts
    obtain ⟨n, rfl⟩ : ∃ k, n = k + 1 := ⟨n - 1, by simp at hn; omega⟩
    have hopen : c.kind ≠ close.kind := by
      rw [List.map_cons, hx] at hw
      obtain ⟨ys, rfl⟩ := hw.exists_head
      exact hc.kind_ne hkind hshift
    rw [commaClosed, Round.closed, bind_of_ok (peekKind_ok c), if_neg hopen]
    obtain ⟨c₁, ⟨rfl, hrun, hc₁⟩ | ⟨-, hrun, u, hu, hc₁⟩⟩ :=
      run_item (f := fun a more =>
        if more then commaClosed close.kind item n >>= fun as => pure (a :: as) else pure [a])
        hitem hw hcomma hquestion hc
    · exact ⟨c₁, hrun, hc₁⟩
    · obtain ⟨c₂, hrest, hc₂⟩ := ih hstarts hitems hu (by simpa using hn) hc₁
      exact ⟨c₂, hrun.trans (bind_of_ok hrest), hc₂⟩

end Parser

namespace Parse

open Quill.Parser

variable {e c : Cursor} {t : TypeExpr} {w ts : List Token} {power : Power}

/-- Whatever the parser of annotations does where the tokens are faced, it starts by reading the
annotation off them, and has budget left for what follows. Behind a function type no `?` may
follow. -/
def OpensOff (e : Cursor) (t : TypeExpr) (w : List Token) : Prop :=
  ∀ ⦃n : Nat⦄ ⦃power : Power⦄ ⦃c : Cursor⦄ ⦃ts : List Token⦄, ¬ Power.call ≤ power →
    w.length ≤ n → c.Faces e (w ++ ts) → (t.isFunction = true → e.Unasked ts) →
    ∃ k c', typeExpr .standard (n + 1) power c = typeTail .standard power k t c' ∧
      n < k + w.length ∧ c'.previousEnd = t.span.stop ∧ c'.Faces e ts

/-- Without a `?` the annotation is complete. -/
theorem typeTail_of_kind_ne (h : c.kind ≠ .mark .question) (k : Nat) :
    typeTail .standard power (k + 1) t c = .ok t c := by
  have hnone : Grammar.standard.typeFollow c.kind = none := by
    by_contra hsome
    obtain ⟨⟨p, form⟩, hfollow⟩ := Option.ne_none_iff_exists'.mp hsome
    exact h (typeFollow_eq hfollow).1
  rw [typeTail, Round.typeTail, bind_of_ok (peekKind_ok c), hnone]
  rfl

theorem OpensOff.read (h : OpensOff e t w) (hpower : ¬ Power.call ≤ power) {n : Nat}
    (hn : w.length < n) (hc : c.Faces e (w ++ ts)) (hts : e.Unasked ts) :
    ∃ c', typeExpr .standard n power c = .ok t c' ∧ c'.previousEnd = t.span.stop ∧
      c'.Faces e ts := by
  obtain ⟨n, rfl⟩ : ∃ k, n = k + 1 := ⟨n - 1, by omega⟩
  obtain ⟨k, c', hrun, hk, hend, hc'⟩ := h (n := n) hpower (by omega) hc fun _ => hts
  obtain ⟨k, rfl⟩ : ∃ j, k = j + 1 := ⟨k - 1, by omega⟩
  exact ⟨c', hrun.trans (typeTail_of_kind_ne (hts c' hc') k), hend, hc'⟩

/-- What is read as the start of an annotation opens it. -/
theorem opensOff_of_head (hne : w ≠ [])
    (h : ∀ {n : Nat} {c : Cursor} {ts : List Token}, w.length ≤ n → c.Faces e (w ++ ts) →
      (t.isFunction = true → e.Unasked ts) →
      ∃ c', typeHead .standard (typeExpr .standard n .weakest) n c = .ok t c' ∧
        c'.previousEnd = t.span.stop ∧ c'.Faces e ts) : OpensOff e t w := by
  intro n power c ts _ hn hc hts
  obtain ⟨c', hrun, hend, hc'⟩ := h hn hc hts
  have hpos := List.length_pos_iff.mpr hne
  exact ⟨n, c', by rw [typeExpr, bind_of_ok hrun], by omega, hend, hc'⟩

theorem count_le_of_occupies {items : List (TypeExpr × List Token)}
    (hw : CommaJoined (items.map (·.2)) w) (h : ∀ i ∈ items, i.1.Occupies i.2) :
    items.length ≤ w.length := by
  have hcount := hw.count_le (List.forall_mem_map.mpr fun i hi => (h i hi).ne_nil)
  rwa [List.length_map] at hcount

/-- What opens in a list is read off the tokens of the list. -/
theorem readsOff_of_opensOff {items : List (TypeExpr × List Token)}
    (hw : CommaJoined (items.map (·.2)) w) (h : ∀ i ∈ items, OpensOff e i.1 i.2) {n : Nat}
    (hn : w.length < n) :
    ∀ i ∈ items, ReadsOff e (typeExpr .standard n .weakest) i.1 i.2 := by
  have hweakest : ¬ Power.call ≤ Power.weakest := by decide
  intro i hi c ts hc hts
  have hlength := hw.length_le i.2 (List.mem_map_of_mem hi)
  obtain ⟨c', hrun, -, hc'⟩ := (h i hi).read (n := n) hweakest (by omega) hc hts
  exact ⟨c', hrun, hc'⟩

/-- **An annotation is read off the tokens that it occupies**, by induction on it. -/
theorem opensOff_of_occupies (h : t.Occupies w) : OpensOff e t w := by
  have hweakest : ¬ Power.call ≤ Power.weakest := by decide
  induction h with
  | @named x hx =>
    refine opensOff_of_head (List.cons_ne_nil _ _) fun {n c ts} _ hc _ => ?_
    have hkind : c.kind = .identifier := (hc.kind_eq (by simp [hx])).trans hx
    obtain ⟨hcurrent, hend, hc₁⟩ := hc.pass (by simp [hx])
    refine ⟨c.advance, ?_, hend, hc₁⟩
    rw [typeHead, bind_of_ok (peekKind_ok c), hkind]
    change namedType c = _
    rw [namedType, bind_of_ok (expect_of_kind hkind), hcurrent]
    rfl
  | @array x y t w hx _ hy ih =>
    refine opensOff_of_head (List.cons_ne_nil _ _) fun {n c ts} hn hc _ => ?_
    simp only [List.length_cons, List.length_append, List.cons_append, List.append_assoc] at hn hc
    obtain ⟨hkind, hopen, -, hc₁⟩ := hc.expect hx (by decide)
    obtain ⟨c₂, ht, -, hc₂⟩ :=
      ih.read (n := n) hweakest (by omega) hc₁ (Cursor.unasked_cons (by simp [hy]))
    obtain ⟨-, hclose, hend, hc₃⟩ := hc₂.expect hy (by decide)
    refine ⟨c₂.advance, ?_, hend, hc₃⟩
    rw [typeHead, bind_of_ok (peekKind_ok c), hkind]
    change arrayType _ c = _
    rw [arrayType, bind_of_ok hopen, bind_of_ok ht, bind_of_ok hclose,
      bind_of_ok (spanFrom_ok _ _), hend]
    rfl
  | @optional t y w _ hbase hy ih =>
    -- the mark is read by the loop that goes on with the base
    intro n power c ts hpower hn hc _
    simp only [List.length_append, List.append_assoc] at hn hc
    obtain ⟨k, c₁, hrun, hk, -, hc₁⟩ := ih (n := n) hpower (by omega) hc (by simp [hbase])
    obtain ⟨k, rfl⟩ : ∃ j, k = j + 1 := ⟨k - 1, by omega⟩
    obtain ⟨hkind, hmark, hend, hc₂⟩ := hc₁.expect hy (by decide)
    refine ⟨k, c₁.advance, hrun.trans ?_, by simp; omega, hend, hc₂⟩
    rw [typeTail, Round.typeTail, bind_of_ok (peekKind_ok c₁), hkind]
    change (if Power.call ≤ power then pure t else optionalType t >>= typeTail _ power k) c₁ = _
    rw [if_neg hpower, optionalType, bind_assoc, bind_of_ok hmark, bind_assoc,
      bind_of_ok (spanFrom_ok _ _), hend]
    rfl
  | @sum x y items w hx hne hitems hw hy ih =>
    have hcount := count_le_of_occupies hw hitems
    refine opensOff_of_head (List.cons_ne_nil _ _) fun {n c ts} hn hc _ => ?_
    simp only [List.length_cons, List.length_append, List.cons_append, List.append_assoc] at hn hc
    obtain ⟨hkind, hopen, -, hc₁⟩ := hc.expect hx (by decide)
    obtain ⟨c₂, hrun, hc₂⟩ := run_commaSeparated (n := n) (by simp [hy]) (by simp [hy]) hne
      (readsOff_of_opensOff (n := n) hw ih (by omega)) hw (hcount.trans (by omega)) hc₁
    obtain ⟨hclose, hend, hc₃⟩ := hc₂.sumEnd hy
    refine ⟨c₂.splitShift.advance, ?_, hend, hc₃⟩
    rw [typeHead, bind_of_ok (peekKind_ok c), hkind]
    change sumType _ n c = _
    rw [sumType, bind_of_ok hopen, bind_of_ok hrun, bind_of_ok (splitShift_ok c₂),
      bind_of_ok (expect_of_kind hclose), bind_of_ok (spanFrom_ok _ _), hend]
    rfl
  | @function x y arrow params r w u hx hparams hw hy harrow _ ihparams ihresult =>
    have hcount := count_le_of_occupies hw hparams
    have hstarts : ∀ i ∈ params, ∃ x xs, i.2 = x :: xs ∧ x.kind ≠ y.kind := by
      intro i hi
      obtain ⟨x, xs, hxs, hstart⟩ := (hparams i hi).exists_head
      refine ⟨x, xs, hxs, fun hkind => ?_⟩
      rw [hkind, hy] at hstart
      cases hstart
    refine opensOff_of_head (List.cons_ne_nil _ _) fun {n c ts} hn hc hts => ?_
    simp only [List.length_cons, List.length_append, List.cons_append, List.append_assoc] at hn hc
    obtain ⟨hkind, hopen, -, hc₁⟩ := hc.expect hx (by decide)
    obtain ⟨c₂, hrun, hc₂⟩ := run_commaClosed (n := n) (by simp [hy]) (by simp [hy]) (by simp [hy])
      (by simp [hy]) hstarts (readsOff_of_opensOff (n := n) hw ihparams (by omega)) hw
      (Nat.lt_of_le_of_lt hcount (by omega)) hc₁
    rw [hy] at hrun
    obtain ⟨-, hclose, -, hc₃⟩ := hc₂.expect hy (by decide)
    obtain ⟨-, hto, -, hc₄⟩ := hc₃.expect harrow (by decide)
    obtain ⟨c₅, hresult, hend, hc₅⟩ := ihresult.read (n := n) hweakest (by omega) hc₄ (hts rfl)
    refine ⟨c₅, ?_, hend, hc₅⟩
    rw [typeHead, bind_of_ok (peekKind_ok c), hkind]
    change functionType _ n c = _
    rw [functionType, bind_of_ok hopen, bind_of_ok hrun, bind_of_ok hclose, bind_of_ok hto,
      bind_of_ok hresult, bind_of_ok (spanFrom_ok _ _), hend]
    rfl

end Parse

/-- Where the tokens of an annotation are faced, it is read, and what is behind them is left. -/
theorem parseType_of_faces {t : TypeExpr} {ts : List Token} {c e : Cursor} {power : Power}
    (ht : t.Occupies ts) (hpower : ¬ Power.call ≤ power) (he : e.kind ≠ .mark .question)
    (hc : c.Faces e ts) :
    Grammar.standard.parseType power c = (.ok t, ⟨t.span.stop, e.rest, e.last⟩) := by
  have hbudget : ts.length < c.budget := by
    obtain ⟨us, hus, hrest⟩ := hc.rest
    have hlength := hus.length_le
    rw [Cursor.budget, Cursor.weight_eq, hrest, List.map_append, List.sum_append]
    omega
  have hfaces : c.Faces e (ts ++ []) := by rwa [List.append_nil]
  obtain ⟨c', hrun, hend, hc'⟩ :=
    (Parse.opensOff_of_occupies ht).read hpower hbudget hfaces (Cursor.unasked_nil he)
  have hleft : c' = ⟨t.span.stop, e.rest, e.last⟩ := by
    rw [← hend, ← hc'.rest_eq, ← hc'.last]
  rw [Grammar.parseType, Cursor.run, hrun, hleft]

/-! ## Tokens that say an annotation -/

/-- The tokens say the terminals, one each. -/
def Says (ts : List Token) (xs : List Terminal) : Prop := ts.map Token.terminal? = xs.map some

namespace Says

variable {ts : List Token} {x : Terminal} {xs ys : List Terminal}

theorem eq_nil (h : Says ts []) : ts = [] := List.map_eq_nil_iff.mp h

theorem exists_cons (h : Says ts (x :: xs)) :
    ∃ t us, ts = t :: us ∧ t.terminal? = some x ∧ Says us xs := List.map_eq_cons_iff.mp h

theorem exists_append (h : Says ts (xs ++ ys)) :
    ∃ us vs, ts = us ++ vs ∧ Says us xs ∧ Says vs ys := by
  unfold Says at h
  rw [List.map_append] at h
  exact List.map_eq_append_iff.mp h

theorem exists_mark {m : Mark} (h : Says ts (.mark m :: xs)) :
    ∃ t us, ts = t :: us ∧ t.kind = .mark m ∧ Says us xs := by
  obtain ⟨t, us, rfl, ht, hus⟩ := h.exists_cons
  exact ⟨t, us, rfl, Token.kind_of_terminal? ht, hus⟩

end Says

namespace Syntax.TypeExpr

theorem isFunction_unplaced (t : TypeExpr) : t.unplaced.isFunction = t.isFunction := by
  cases t <;> rfl

/-- The annotation stands somewhere in whatever tokens say it. -/
def Placeable (t : TypeExpr) : Prop :=
  ∀ ⦃ts : List Token⦄, Says ts t.print → ∃ t' : TypeExpr, t'.unplaced = t.unplaced ∧ t'.Occupies ts

theorem exists_items {as : List TypeExpr} (h : ∀ t ∈ as, t.Placeable) : ∀ {w : List Token},
    Says w (commas (as.map print)) → ∃ items : List (TypeExpr × List Token),
      (items.map (·.1)).map unplaced = as.map unplaced ∧ (∀ i ∈ items, i.1.Occupies i.2) ∧
        CommaJoined (items.map (·.2)) w := by
  induction as with
  | nil =>
    intro w hw
    rw [hw.eq_nil]
    exact ⟨[], rfl, List.forall_mem_nil _, .nil⟩
  | cons t as ih =>
    intro w hw
    obtain ⟨ht, has⟩ := List.forall_mem_cons.mp h
    cases as with
    | nil =>
      obtain ⟨t', htt', hoccupies⟩ := ht hw
      exact ⟨[(t', w)], by simp [htt'], List.forall_mem_singleton.mpr hoccupies, .one⟩
    | cons u as =>
      obtain ⟨v, v', rfl, hv, hv'⟩ := hw.exists_append
      obtain ⟨comma, w, rfl, hcomma, hw⟩ := hv'.exists_mark
      obtain ⟨t', htt', hoccupies⟩ := ht hv
      obtain ⟨items, hmap, hitems, hjoined⟩ := ih has hw
      cases items with
      | nil => cases hmap
      | cons i items =>
        refine ⟨(t', v) :: i :: items, ?_, List.forall_mem_cons.mpr ⟨hoccupies, hitems⟩, ?_⟩
        · rw [List.map_cons, List.map_cons, hmap, htt']
          rfl
        · exact .more hcomma hjoined

/-- **An annotation that can be printed has its place in the tokens that say it.** -/
theorem Printable.placeable {t : TypeExpr} (h : t.Printable) : t.Placeable := by
  induction h with
  | named =>
    intro ts hts
    obtain ⟨x, us, rfl, hx, hus⟩ := hts.exists_cons
    rw [hus.eq_nil]
    refine ⟨.named x.value x.span, ?_, .named (Token.kind_of_terminal? hx)⟩
    rw [unplaced, unplaced, Token.value_of_terminal? hx rfl]
    rfl
  | array _ ih =>
    intro ts hts
    rw [print] at hts
    obtain ⟨x, us, rfl, hx, hus⟩ := hts.exists_mark
    obtain ⟨w, vs, rfl, hw, hvs⟩ := hus.exists_append
    obtain ⟨y, vs, rfl, hy, hvs⟩ := hvs.exists_mark
    rw [hvs.eq_nil]
    obtain ⟨t', ht', hoccupies⟩ := ih hw
    exact ⟨_, by rw [unplaced, unplaced, ht'], .array hx hoccupies hy⟩
  | optional _ hbase ih =>
    intro ts hts
    rw [print] at hts
    obtain ⟨w, vs, rfl, hw, hvs⟩ := hts.exists_append
    obtain ⟨y, vs, rfl, hy, hvs⟩ := hvs.exists_mark
    rw [hvs.eq_nil]
    obtain ⟨t', ht', hoccupies⟩ := ih hw
    refine ⟨_, by rw [unplaced, unplaced, ht'], .optional hoccupies ?_ hy⟩
    rw [← isFunction_unplaced, ht', isFunction_unplaced, hbase]
  | sum hne _ ih =>
    intro ts hts
    rw [print, prints_eq] at hts
    obtain ⟨x, us, rfl, hx, hus⟩ := hts.exists_mark
    obtain ⟨w, vs, rfl, hw, hvs⟩ := hus.exists_append
    obtain ⟨y, vs, rfl, hy, hvs⟩ := hvs.exists_mark
    rw [hvs.eq_nil]
    obtain ⟨items, hmap, hitems, hjoined⟩ := exists_items ih hw
    refine ⟨_, ?_, .sum hx ?_ hitems hjoined hy⟩
    · rw [unplaced, unplaced, allUnplaced_eq, allUnplaced_eq, hmap]
    · rintro rfl
      exact hne (List.map_eq_nil_iff.mp hmap.symm)
  | function _ _ ihparams ihresult =>
    intro ts hts
    rw [print, prints_eq] at hts
    obtain ⟨x, us, rfl, hx, hus⟩ := hts.exists_mark
    obtain ⟨w, vs, rfl, hw, hvs⟩ := hus.exists_append
    obtain ⟨y, vs, rfl, hy, hvs⟩ := hvs.exists_mark
    obtain ⟨arrow, u, rfl, harrow, hu⟩ := hvs.exists_mark
    obtain ⟨items, hmap, hitems, hjoined⟩ := exists_items ihparams hw
    obtain ⟨r', hr', hoccupies⟩ := ihresult hu
    refine ⟨_, ?_, .function hx hitems hjoined hy harrow hoccupies⟩
    rw [unplaced, unplaced, allUnplaced_eq, allUnplaced_eq, hmap, hr']

end Syntax.TypeExpr

/-- **Glued or not, tokens are read as the same annotation.** Whatever tokens say it, with each `>`
a token of its own, and whichever of these are glued in pairs: the one tree that occupies the tokens
is read, with its spans, and what follows is left. -/
theorem parseType_cuts {t : TypeExpr} (ht : t.Printable) {ts us : List Token}
    (hts : Says ts t.print) (hus : Cuts us ts) {e : Cursor} (he : e.kind ≠ .mark .question)
    {power : Power} (hpower : ¬ Power.call ≤ power) (start : Position) :
    ∃ t' : TypeExpr, t'.unplaced = t.unplaced ∧ (∀ s : TypeExpr, s.Occupies ts ↔ s = t') ∧
      Grammar.standard.parseType power ⟨start, ts ++ e.rest, e.last⟩ =
        (.ok t', ⟨t'.span.stop, e.rest, e.last⟩) ∧
      Grammar.standard.parseType power ⟨start, us ++ e.rest, e.last⟩ =
        (.ok t', ⟨t'.span.stop, e.rest, e.last⟩) := by
  obtain ⟨t', ht', hoccupies⟩ := ht.placeable hts
  have hread : ∀ {s : TypeExpr}, s.Occupies ts → ∀ {vs : List Token}, Cuts vs ts →
      Grammar.standard.parseType power ⟨start, vs ++ e.rest, e.last⟩ =
        (.ok s, ⟨s.span.stop, e.rest, e.last⟩) :=
    fun hs _ hvs => parseType_of_faces hs hpower he ⟨rfl, _, hvs, rfl⟩
  refine ⟨t', ht', fun s => ⟨fun hs => ?_, ?_⟩, hread hoccupies (.refl ts), hread hoccupies hus⟩
  · -- what is read does not depend on which annotation is known to occupy the tokens
    have hsame := (hread hs (.refl ts)).symm.trans (hread hoccupies (.refl ts))
    exact Except.ok.inj (Prod.mk.inj hsame).1
  · rintro rfl
    exact hoccupies

namespace Sample

/-- `<int, () -> <bool>>`, where the result of a function ends with the sum around it. -/
def functionLast : TypeExpr :=
  let s : Span := .nowhere
  .sum [.named "int" s, .function [] (.sum [.named "bool" s] s) s] s

/-- Its tokens before the ends of the two sums. -/
def functionLastOpen : List Token :=
  [Terminal.mark .less, .name "int", .mark .comma, .mark .openParen, .mark .closeParen,
    .mark .arrow, .mark .less, .name "bool"].map Terminal.token

/-- The ends of the two sums, glued. -/
def twoEnds : Token := ⟨.mark .shiftRight, ">>", .nowhere⟩

/-- The first of the two. -/
def firstEnd : Token := ⟨.mark .greater, ">", ⟨.nowhere, Position.nowhere.succ⟩⟩

/-- The second of the two. -/
def secondEnd : Token := ⟨.mark .greater, ">", ⟨Position.nowhere.succ, .nowhere⟩⟩

end Sample

/-- The two ends are cut apart, and a `>` behind them is left. -/
theorem parseType_cuts_functionLast :
    Sample.functionLast.Printable ∧
      Says (Sample.functionLastOpen ++ [Sample.firstEnd, Sample.secondEnd])
        Sample.functionLast.print ∧
      ∃ t : TypeExpr, t.unplaced = Sample.functionLast.unplaced ∧
        Grammar.standard.parseType .weakest
            ⟨.nowhere, Sample.functionLastOpen ++ [Sample.twoEnds, Sample.firstEnd], default⟩ =
          (.ok t, ⟨t.span.stop, [Sample.firstEnd], default⟩) := by
  have hprintable : Sample.functionLast.Printable := by
    refine .sum (List.cons_ne_nil _ _) (List.forall_mem_cons.mpr ⟨.named, ?_⟩)
    refine List.forall_mem_singleton.mpr (.function (List.forall_mem_nil _) ?_)
    exact .sum (List.cons_ne_nil _ _) (List.forall_mem_singleton.mpr .named)
  have hsays : Says (Sample.functionLastOpen ++ [Sample.firstEnd, Sample.secondEnd])
      Sample.functionLast.print := by
    unfold Says
    decide
  have hcuts : Cuts (Sample.functionLastOpen ++ [Sample.twoEnds])
      (Sample.functionLastOpen ++ [Sample.firstEnd, Sample.secondEnd]) :=
    (Cuts.cut rfl .nil).append _
  have hpower : ¬ Power.call ≤ Power.weakest := by decide
  obtain ⟨t, ht, -, -, hglued⟩ := parseType_cuts hprintable hsays hcuts
    (e := ⟨.nowhere, [Sample.firstEnd], default⟩) (by decide) hpower .nowhere
  exact ⟨hprintable, hsays, t, ht, hglued⟩

end Quill
