import Mathlib.Data.List.Basic
import Quill.Syntax.Basic
import Quill.Token.Basic

/-!
# Trees of spans over tokens

The spans of a tree, and of everything in it, form a `SpanTree`: the children of a node in the order
in which they are written. Some of the tokens of a text may be cut: `Cuts ts us` says that `us` are
the tokens `ts`, with some `>>` as two tokens `>`.

`Covers f ts` says that the trees `f` stand in the tokens `ts`, one behind the other: each has a
stretch of its own, from the token where its span starts to the one where it ends, and its children
stand in that stretch. Tokens may be left out anywhere, so that a pair of parentheses need not
belong to any node. Where the tokens follow each other, the spans nest (`SpanTree.Nested`).

Results:
* `Covers.append`, `Covers.single`, `Covers.fromChild`, `Covers.toChild`, `Covers.join`: how trees
  are put together.
* `Cuts.ordered`: tokens that are cut still follow each other.
* **`Covers.nested`**: trees that stand in tokens have spans that nest.
-/

namespace Quill

open Syntax

/-! ## Trees of spans -/

/-- The span starts where one of the tokens starts, and ends where one of them ends. -/
structure Span.Between (tokens : List Token) (s : Span) : Prop where
  start : ∃ t ∈ tokens, t.span.start = s.start
  stop : ∃ t ∈ tokens, t.span.stop = s.stop

theorem Span.Between.mono {ts us : List Token} {s : Span} (h : s.Between ts) (hsub : ts ⊆ us) :
    s.Between us := by
  obtain ⟨⟨t, ht, hstart⟩, u, hu, hstop⟩ := h
  exact ⟨⟨t, hsub ht, hstart⟩, u, hsub hu, hstop⟩

/-- A span with the spans of what it consists of, in the order in which they are written. -/
inductive SpanTree where
  | node (span : Span) (children : List SpanTree)

namespace SpanTree

/-- The span of the whole. -/
def span : SpanTree → Span
  | node s _ => s

/-- The trees stand inside the span, one behind the other. -/
structure Siblings (s : Span) (trees : List SpanTree) : Prop where
  inside : ∀ c ∈ trees, s.start.offset.toNat ≤ c.span.start.offset.toNat ∧
    c.span.stop.offset.toNat ≤ s.stop.offset.toNat
  increasing : trees.Pairwise fun c d => c.span.stop.offset.toNat ≤ d.span.start.offset.toNat

/-- Every span of the tree starts where one of the tokens starts and ends where one ends, is not
empty, and has its children inside, one behind the other. -/
inductive Nested (tokens : List Token) : SpanTree → Prop
  | node {s : Span} {children : List SpanTree} (hbetween : s.Between tokens)
      (hlt : s.start.offset.toNat < s.stop.offset.toNat) (hsiblings : Siblings s children)
      (hchildren : ∀ c ∈ children, Nested tokens c) : Nested tokens (node s children)

end SpanTree

namespace Syntax

mutual

/-- The spans of an annotation. -/
def TypeExpr.spans : TypeExpr → SpanTree
  | .named _ s => .node s []
  | .array element s => .node s [element.spans]
  | .optional base s => .node s [base.spans]
  | .sum alternatives s => .node s (TypeExpr.allSpans alternatives)
  | .function params result s => .node s (TypeExpr.allSpans params ++ [result.spans])

/-- The spans of several annotations. -/
def TypeExpr.allSpans : List TypeExpr → List SpanTree
  | [] => []
  | t :: ts => t.spans :: TypeExpr.allSpans ts

end

mutual

/-- The spans of an expression. -/
def Expr.spans : Expr → SpanTree
  | .int _ s | .float _ s | .string _ s | .bool _ s | .symbol _ s => .node s []
  | .binary _ left right s => .node s [left.spans, right.spans]
  | .unary _ operand s => .node s [operand.spans]
  | .conditional test yes no s => .node s [test.spans, yes.spans, no.spans]
  | .array elements s => .node s (Expr.allSpans elements)
  | .emptyArray element s => .node s [element.spans]
  | .absent base s => .node s [base.spans]
  | .subscript items index s => .node s [items.spans, index.spans]
  | .member object _ _ s => .node s [object.spans]
  | .call callee args s => .node s (callee.spans :: Expr.allSpans args)

/-- The spans of several expressions. -/
def Expr.allSpans : List Expr → List SpanTree
  | [] => []
  | e :: es => e.spans :: Expr.allSpans es

end

/-- The spans of a name with its type: a field or a parameter. -/
def Binding.spans (b : Binding) : SpanTree := .node b.span [b.type.spans]

mutual

/-- The spans of a statement. -/
def Stmt.spans : Stmt → SpanTree
  | .declare _ _ _ value s => .node s [value.spans]
  | .struct _ fields s => .node s (fields.map Binding.spans)
  | .function _ params result body s =>
    .node s (params.map Binding.spans ++ (result.map TypeExpr.spans).toList ++ [body.spans])
  | .assign target value _ s => .node s [target.spans, value.spans]
  | .increment target s | .decrement target s => .node s [target.spans]
  | .breakLoop s => .node s []
  | .giveBack value s => .node s (value.map Expr.spans).toList
  | .branch test body rest s => .node s (test.spans :: body.spans :: rest.spans)
  | .whileLoop test body s => .node s [test.spans, body.spans]
  | .repeatLoop count body s => .node s [count.spans, body.spans]
  | .rangeLoop _ low _ high body s => .node s [low.spans, high.spans, body.spans]
  | .eachLoop _ collection body s => .node s [collection.spans, body.spans]
  | .perform call s => .node s [call.spans]

/-- The spans of a block. -/
def Block.spans : Block → SpanTree
  | .mk body s => .node s (Stmt.allSpans body)

/-- The spans of what follows the first arm of a branch: none, a block, or a branch of its own. -/
def Alternative.spans : Alternative → List SpanTree
  | .nothing => []
  | .otherwise body => [body.spans]
  | .elseIf test body rest s => [.node s (test.spans :: body.spans :: rest.spans)]

/-- The spans of several statements. -/
def Stmt.allSpans : List Stmt → List SpanTree
  | [] => []
  | s :: ss => s.spans :: Stmt.allSpans ss

end

theorem TypeExpr.allSpans_eq (ts : List TypeExpr) :
    TypeExpr.allSpans ts = ts.map TypeExpr.spans := by
  induction ts with
  | nil => rfl
  | cons t ts ih => rw [TypeExpr.allSpans, ih, List.map_cons]

theorem Expr.allSpans_eq (es : List Expr) : Expr.allSpans es = es.map Expr.spans := by
  induction es with
  | nil => rfl
  | cons e es ih => rw [Expr.allSpans, ih, List.map_cons]

theorem Stmt.allSpans_eq (ss : List Stmt) : Stmt.allSpans ss = ss.map Stmt.spans := by
  induction ss with
  | nil => rfl
  | cons s ss ih => rw [Stmt.allSpans, ih, List.map_cons]

@[simp] theorem TypeExpr.span_spans (t : TypeExpr) : t.spans.span = t.span := by
  cases t <;> rfl

@[simp] theorem Expr.span_spans (e : Expr) : e.spans.span = e.span := by
  cases e <;> rfl

end Syntax

/-! ## Tokens that are cut -/

/-- The tokens `us` are `ts`, with some `>>` cut into two tokens `>`. -/
inductive Cuts : List Token → List Token → Prop
  | nil : Cuts [] []
  | keep {t : Token} {ts us : List Token} (h : Cuts ts us) : Cuts (t :: ts) (t :: us)
  | cut {t : Token} {ts us : List Token} (ht : t.kind = .mark .shiftRight) (h : Cuts ts us) :
      Cuts (t :: ts) (⟨.mark .greater, ">", ⟨t.span.start, t.span.start.succ⟩⟩
        :: ⟨.mark .greater, ">", ⟨t.span.start.succ, t.span.stop⟩⟩ :: us)

/-- The tokens are not empty and follow each other, and each `>>` has two bytes. -/
structure Ordered (ts : List Token) : Prop where
  nonempty : ∀ t ∈ ts, t.span.start.offset.toNat < t.span.stop.offset.toNat
  increasing : ts.Pairwise fun t u => t.span.stop.offset.toNat ≤ u.span.start.offset.toNat
  shifts : ∀ t ∈ ts, t.kind = .mark .shiftRight →
    t.span.stop.offset.toNat = t.span.start.offset.toNat + 2

/-- The middle of a `>>` is one byte behind its start: no offset wraps around there, since the end
is one further. -/
theorem Ordered.toNat_succ {ts : List Token} {t : Token} (h : Ordered ts) (ht : t ∈ ts)
    (hkind : t.kind = .mark .shiftRight) :
    t.span.start.succ.offset.toNat = t.span.start.offset.toNat + 1 := by
  have hwidth := h.shifts t ht hkind
  have hlt := t.span.stop.offset.toNat_lt
  have hone : t.span.start.offset.toNat + 1 < 2 ^ 32 := by omega
  rw [Position.succ, UInt32.toNat_add, show (1 : UInt32).toNat = 1 from rfl, Nat.mod_eq_of_lt hone]

theorem ordered_append {ts us : List Token} : Ordered (ts ++ us) ↔ Ordered ts ∧ Ordered us ∧
    ∀ t ∈ ts, ∀ u ∈ us, t.span.stop.offset.toNat ≤ u.span.start.offset.toNat := by
  constructor
  · rintro ⟨hnonempty, hincreasing, hshifts⟩
    obtain ⟨hleft, hright⟩ := List.forall_mem_append.mp hnonempty
    obtain ⟨hleft', hright', hcross⟩ := List.pairwise_append.mp hincreasing
    obtain ⟨hleft'', hright''⟩ := List.forall_mem_append.mp hshifts
    exact ⟨⟨hleft, hleft', hleft''⟩, ⟨hright, hright', hright''⟩, hcross⟩
  · rintro ⟨hleft, hright, hcross⟩
    exact ⟨List.forall_mem_append.mpr ⟨hleft.nonempty, hright.nonempty⟩,
      List.pairwise_append.mpr ⟨hleft.increasing, hright.increasing, hcross⟩,
      List.forall_mem_append.mpr ⟨hleft.shifts, hright.shifts⟩⟩

theorem ordered_cons {t : Token} {ts : List Token} : Ordered (t :: ts) ↔
    Ordered [t] ∧ Ordered ts ∧ ∀ u ∈ ts, t.span.stop.offset.toNat ≤ u.span.start.offset.toNat := by
  rw [← List.singleton_append, ordered_append]
  simp

namespace Cuts

variable {ts us vs : List Token}

theorem refl (ts : List Token) : Cuts ts ts := by
  induction ts with
  | nil => exact .nil
  | cons t ts ih => exact .keep ih

theorem append (done : List Token) (h : Cuts ts us) : Cuts (done ++ ts) (done ++ us) := by
  induction done with
  | nil => exact h
  | cons t done ih => exact .keep ih

/-- What is cut is not cut again. -/
theorem trans (h : Cuts ts us) : ∀ {vs : List Token}, Cuts us vs → Cuts ts vs := by
  induction h with
  | nil => exact id
  | keep _ ih =>
    intro vs hvs
    cases hvs with
    | keep hvs => exact .keep (ih hvs)
    | cut ht hvs => exact .cut ht (ih hvs)
  | cut ht _ ih =>
    intro vs hvs
    cases hvs with
    -- neither half is a `>>`
    | cut hfirst _ => cases hfirst
    | keep hvs =>
      cases hvs with
      | cut hsecond _ => cases hsecond
      | keep hvs => exact .cut ht (ih hvs)

theorem le_start {n : Nat} (h : Cuts ts us) (hord : Ordered ts)
    (hts : ∀ t ∈ ts, n ≤ t.span.start.offset.toNat) : ∀ u ∈ us, n ≤ u.span.start.offset.toNat := by
  induction h with
  | nil => exact hts
  | keep _ ih =>
    obtain ⟨ht, hts⟩ := List.forall_mem_cons.mp hts
    exact List.forall_mem_cons.mpr ⟨ht, ih (ordered_cons.mp hord).2.1 hts⟩
  | @cut t _ _ hkind _ ih =>
    obtain ⟨ht, hts⟩ := List.forall_mem_cons.mp hts
    have hus := ih (ordered_cons.mp hord).2.1 hts
    refine List.forall_mem_cons.mpr ⟨ht, List.forall_mem_cons.mpr ⟨?_, hus⟩⟩
    change n ≤ t.span.start.succ.offset.toNat
    rw [hord.toNat_succ List.mem_cons_self hkind]
    omega

/-- Tokens that are cut still follow each other. -/
theorem ordered (h : Cuts ts us) (hts : Ordered ts) : Ordered us := by
  induction h with
  | nil => exact hts
  | keep hcuts ih =>
    obtain ⟨ht, hrest, hafter⟩ := ordered_cons.mp hts
    exact ordered_cons.mpr ⟨ht, ih hrest, hcuts.le_start hrest hafter⟩
  | @cut t ts us hkind hcuts ih =>
    obtain ⟨ht, hrest, hafter⟩ := ordered_cons.mp hts
    have hwidth : t.span.stop.offset.toNat = t.span.start.offset.toNat + 2 :=
      ht.shifts t List.mem_cons_self hkind
    have hsucc : t.span.start.succ.offset.toNat = t.span.start.offset.toNat + 1 :=
      ht.toNat_succ List.mem_cons_self hkind
    have hhalf : ∀ s : Span, s.start.offset.toNat < s.stop.offset.toNat →
        Ordered [⟨.mark .greater, ">", s⟩] := by
      intro s hs
      refine ⟨List.forall_mem_singleton.mpr hs, List.pairwise_singleton _ _, ?_⟩
      refine List.forall_mem_singleton.mpr fun hshift => ?_
      cases hshift
    have hus := hcuts.le_start hrest hafter
    -- the halves meet one byte behind the start, and one byte before the end
    have hsecond : t.span.start.succ.offset.toNat < t.span.stop.offset.toNat := by omega
    have hfirst : t.span.start.offset.toNat < t.span.start.succ.offset.toNat := by omega
    refine ordered_cons.mpr ⟨hhalf _ hfirst, ?_, ?_⟩
    · exact ordered_cons.mpr ⟨hhalf _ hsecond, ih hrest, hus⟩
    · refine List.forall_mem_cons.mpr ⟨Nat.le_refl _, fun u hu => ?_⟩
      have hle := hus u hu
      change t.span.start.succ.offset.toNat ≤ u.span.start.offset.toNat
      omega

end Cuts

/-! ## Trees that stand in tokens -/

/-- The first of the tokens starts at the place. -/
def StartsAt (ts : List Token) (p : Position) : Prop := ∃ t, ts.head? = some t ∧ t.span.start = p

/-- The last of the tokens ends at the place. -/
def EndsAt (ts : List Token) (p : Position) : Prop := ∃ t, ts.getLast? = some t ∧ t.span.stop = p

section

variable {ts us : List Token} {p : Position}

theorem StartsAt.ne_nil (h : StartsAt ts p) : ts ≠ [] := by
  rintro rfl
  obtain ⟨t, ht, -⟩ := h
  cases ht

theorem EndsAt.ne_nil (h : EndsAt ts p) : ts ≠ [] := by
  rintro rfl
  obtain ⟨t, ht, -⟩ := h
  cases ht

theorem startsAt_append (hne : ts ≠ []) : StartsAt (ts ++ us) p ↔ StartsAt ts p := by
  unfold StartsAt
  rw [List.head?_append_of_ne_nil ts hne]

theorem endsAt_append (hne : us ≠ []) : EndsAt (ts ++ us) p ↔ EndsAt us p := by
  unfold EndsAt
  rw [List.getLast?_append_of_ne_nil ts hne]

/-- No token starts before the first. -/
theorem StartsAt.le (h : StartsAt ts p) (hts : Ordered ts) :
    ∀ t ∈ ts, p.offset.toNat ≤ t.span.start.offset.toNat := by
  obtain ⟨u, hu, rfl⟩ := h
  obtain ⟨us, rfl⟩ := List.head?_eq_some_iff.mp hu
  have hlt : u.span.start.offset.toNat < u.span.stop.offset.toNat :=
    hts.nonempty u List.mem_cons_self
  refine List.forall_mem_cons.mpr ⟨Nat.le_refl _, fun t ht => ?_⟩
  have hle := (List.pairwise_cons.mp hts.increasing).1 t ht
  omega

/-- No token ends behind the last. -/
theorem EndsAt.le (h : EndsAt ts p) (hts : Ordered ts) :
    ∀ t ∈ ts, t.span.stop.offset.toNat ≤ p.offset.toNat := by
  obtain ⟨u, hu, rfl⟩ := h
  obtain ⟨us, rfl⟩ := List.getLast?_eq_some_iff.mp hu
  have hlt : u.span.start.offset.toNat < u.span.stop.offset.toNat := hts.nonempty u (by simp)
  intro t ht
  rcases List.mem_append.mp ht with ht | ht
  · have hle := (List.pairwise_append.mp hts.increasing).2.2 t ht u List.mem_cons_self
    omega
  · exact Nat.le_of_eq (by rw [List.mem_singleton.mp ht])

/-- Tokens that follow each other are not empty as a whole. -/
theorem StartsAt.lt {q : Position} (h : StartsAt ts p) (hend : EndsAt ts q) (hts : Ordered ts) :
    p.offset.toNat < q.offset.toNat := by
  obtain ⟨t, ht, rfl⟩ := h
  have hmem := List.mem_of_head? ht
  have hlt := hts.nonempty t hmem
  have hle := hend.le hts t hmem
  omega

end

/-- The trees stand in the tokens, each in a stretch of its own and one behind the other. -/
inductive Covers : List SpanTree → List Token → Prop
  | nil {ts : List Token} : Covers [] ts
  | skip {f : List SpanTree} {t : Token} {ts : List Token} (h : Covers f ts) : Covers f (t :: ts)
  | tree {s : Span} {children f : List SpanTree} {ts us : List Token} (hstart : StartsAt ts s.start)
      (hend : EndsAt ts s.stop) (hchildren : Covers children ts) (hrest : Covers f us) :
      Covers (.node s children :: f) (ts ++ us)

namespace Covers

variable {f g : List SpanTree} {ts us : List Token}

/-- Trees stand in tokens that have others before them. -/
theorem behind (h : Covers f ts) (before : List Token) : Covers f (before ++ ts) := by
  induction before with
  | nil => exact h
  | cons t before ih => exact .skip ih

theorem append (hf : Covers f ts) (hg : Covers g us) : Covers (f ++ g) (ts ++ us) := by
  induction hf with
  | nil => exact hg.behind _
  | skip _ ih => exact .skip ih
  | tree hstart hend hchildren _ _ ih =>
    rw [List.append_assoc]
    exact .tree hstart hend hchildren ih

/-- Trees stand in tokens that have others behind them. -/
theorem before (h : Covers f ts) (behind : List Token) : Covers f (ts ++ behind) := by
  have happend := h.append (.nil : Covers [] behind)
  rwa [List.append_nil] at happend

/-- One tree in all of the tokens. -/
theorem single {s : Span} (hstart : StartsAt ts s.start) (hend : EndsAt ts s.stop)
    (hchildren : Covers f ts) : Covers [.node s f] ts := by
  have htree := Covers.tree hstart hend hchildren (.nil : Covers [] [])
  rwa [List.append_nil] at htree

/-- The tokens before the first tree can be left out. -/
theorem exists_start {c : SpanTree} (h : Covers (c :: f) ts) :
    ∃ before us, ts = before ++ us ∧ StartsAt us c.span.start ∧ Covers (c :: f) us := by
  generalize hg : c :: f = g at h
  induction h with
  | nil => cases hg
  | @skip _ t _ _ ih =>
    obtain ⟨before, us, rfl, hstart, hus⟩ := ih hg
    exact ⟨t :: before, us, rfl, hstart, hus⟩
  | @tree s children f ts us hstart hend hchildren hrest _ _ =>
    obtain ⟨rfl, rfl⟩ := List.cons.inj hg
    refine ⟨[], ts ++ us, rfl, ?_, .tree hstart hend hchildren hrest⟩
    exact (startsAt_append hstart.ne_nil).mpr hstart

/-- The tokens behind the last tree can be left out. -/
theorem exists_end {c : SpanTree} (h : Covers (f ++ [c]) ts) :
    ∃ us behind, ts = us ++ behind ∧ EndsAt us c.span.stop ∧ Covers (f ++ [c]) us := by
  generalize hg : f ++ [c] = g at h
  induction h generalizing f with
  | nil => simp at hg
  | @skip _ t _ _ ih =>
    obtain ⟨us, behind, rfl, hend, hus⟩ := ih hg
    have hcons : EndsAt ([t] ++ us) c.span.stop := (endsAt_append hend.ne_nil).mpr hend
    exact ⟨t :: us, behind, rfl, hcons, .skip hus⟩
  | @tree s children rest ts us hstart hend hchildren hrest _ ih =>
    cases f with
    | nil =>
      obtain ⟨rfl, rfl⟩ := List.cons.inj hg
      exact ⟨ts, us, rfl, hend, single hstart hend hchildren⟩
    | cons d f =>
      obtain ⟨rfl, hrest'⟩ := List.cons.inj hg
      obtain ⟨vs, behind, rfl, hend', hvs⟩ := ih hrest'
      refine ⟨ts ++ vs, behind, (List.append_assoc _ _ _).symm, ?_, .tree hstart hend hchildren hvs⟩
      exact (endsAt_append hend'.ne_nil).mpr hend'

/-! ### New nodes

The span of a new node starts where its tokens start or where its first child does, and ends where
its tokens end or where its last child does. -/

variable {c d : SpanTree} {s : Span}

/-- From the start of the first child to the end of the tokens. -/
theorem fromChild (h : Covers (c :: f) ts) (hstart : c.span.start = s.start)
    (hend : EndsAt ts s.stop) : Covers [.node s (c :: f)] ts := by
  obtain ⟨before, us, rfl, hus, hcovers⟩ := h.exists_start
  rw [hstart] at hus
  exact (single hus ((endsAt_append hus.ne_nil).mp hend) hcovers).behind before

/-- From the start of the tokens to the end of the last child. -/
theorem toChild (h : Covers (f ++ [c]) ts) (hstart : StartsAt ts s.start)
    (hend : c.span.stop = s.stop) : Covers [.node s (f ++ [c])] ts := by
  obtain ⟨us, behind, rfl, hus, hcovers⟩ := h.exists_end
  rw [hend] at hus
  exact (single ((startsAt_append hus.ne_nil).mp hstart) hus hcovers).before behind

/-- From the start of the first child to the end of the last one. -/
theorem join (h : Covers (c :: f ++ [d]) ts) (hstart : c.span.start = s.start)
    (hend : d.span.stop = s.stop) : Covers [.node s (c :: f ++ [d])] ts := by
  obtain ⟨us, behind, rfl, hus, hcovers⟩ := h.exists_end
  rw [hend] at hus
  exact (hcovers.fromChild hstart hus).before behind

/-! ### Nesting -/

theorem between (h : Covers f ts) : ∀ c ∈ f, c.span.Between ts := by
  induction h with
  | nil => exact List.forall_mem_nil _
  | @skip _ t ts _ ih => exact fun c hc => (ih c hc).mono (List.subset_cons_self t ts)
  | @tree s _ _ ts us hstart hend _ _ _ ih =>
    have hright : us ⊆ ts ++ us := List.subset_append_right ts us
    refine List.forall_mem_cons.mpr ⟨?_, fun c hc => (ih c hc).mono hright⟩
    obtain ⟨t, ht, htstart⟩ := hstart
    obtain ⟨u, hu, hustop⟩ := hend
    have hbetween : s.Between ts :=
      ⟨⟨t, List.mem_of_head? ht, htstart⟩, u, List.mem_of_getLast? hu, hustop⟩
    exact hbetween.mono (List.subset_append_left ts us)

theorem increasing (h : Covers f ts) (hts : Ordered ts) :
    f.Pairwise fun c d => c.span.stop.offset.toNat ≤ d.span.start.offset.toNat := by
  induction h with
  | nil => exact .nil
  | skip _ ih => exact ih (ordered_cons.mp hts).2.1
  | tree _ hend _ hrest _ ih =>
    obtain ⟨-, hright, hcross⟩ := ordered_append.mp hts
    refine .cons (fun d hd => ?_) (ih hright)
    obtain ⟨u, hu, hstop⟩ := hend
    obtain ⟨v, hv, hstart⟩ := (hrest.between d hd).start
    have hle := hcross u (List.mem_of_getLast? hu) v hv
    rwa [hstop, hstart] at hle

/-- Trees that stand in all of the tokens are siblings in a span around these. -/
theorem siblings {s : Span} (h : Covers f ts) (hts : Ordered ts)
    (hstart : ∀ t ∈ ts, s.start.offset.toNat ≤ t.span.start.offset.toNat)
    (hstop : ∀ t ∈ ts, t.span.stop.offset.toNat ≤ s.stop.offset.toNat) : SpanTree.Siblings s f := by
  refine ⟨fun c hc => ?_, h.increasing hts⟩
  obtain ⟨⟨t, ht, htstart⟩, u, hu, hustop⟩ := h.between c hc
  rw [← htstart, ← hustop]
  exact ⟨hstart t ht, hstop u hu⟩

/-- **The spans of trees that stand in tokens nest**, if the tokens follow each other. -/
theorem nested {tokens : List Token} (h : Covers f ts) (hts : Ordered ts) (hsub : ts ⊆ tokens) :
    ∀ c ∈ f, c.Nested tokens := by
  induction h with
  | nil => exact List.forall_mem_nil _
  | @skip _ t ts _ ih =>
    exact ih (ordered_cons.mp hts).2.1 (List.Subset.trans (List.subset_cons_self t ts) hsub)
  | @tree s children f ts us hstart hend hchildren hrest ihchildren ihrest =>
    obtain ⟨hleft, hright, -⟩ := ordered_append.mp hts
    have hsubl : ts ⊆ tokens := List.Subset.trans (List.subset_append_left ts us) hsub
    have hsubr : us ⊆ tokens := List.Subset.trans (List.subset_append_right ts us) hsub
    refine List.forall_mem_cons.mpr ⟨?_, ihrest hright hsubr⟩
    have hbetween : s.Between ts := (single hstart hend hchildren).between _ List.mem_cons_self
    exact .node (hbetween.mono hsubl) (hstart.lt hend hleft)
      (hchildren.siblings hleft (hstart.le hleft) (hend.le hleft)) (ihchildren hleft hsubl)

end Covers

end Quill
