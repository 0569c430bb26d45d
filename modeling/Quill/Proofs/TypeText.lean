import Quill.Proofs.Gluing
import Quill.Proofs.Printing

/-!
# Annotations as they are written

`IsTypeText` is the grammar of annotations, as lists of terminals. The grammar has no parentheses
for annotations, so a `?` behind a function type belongs to its result; with that, each annotation
is the print of one tree.

The terminals of an annotation may stand side by side: between two of them no blank is needed, or
the two are glued.

Results:
* `IsTypeText.exists_tree`: annotations are prints of trees.
* `IsTypeText.edged`: which terminals of an annotation stand side by side.
-/

namespace Quill

open Syntax

/-! ## Annotations as terminals -/

/-- What the grammar writes as an annotation. -/
inductive IsTypeText : List Terminal → Prop
  | name (s : String) : IsTypeText [.name s]
  | array {w : List Terminal} (h : IsTypeText w) :
      IsTypeText (.mark .openBracket :: (w ++ [.mark .closeBracket]))
  | optional {w : List Terminal} (h : IsTypeText w) : IsTypeText (w ++ [.mark .question])
  | sum {ws : List (List Terminal)} (hne : ws ≠ []) (h : ∀ w ∈ ws, IsTypeText w) :
      IsTypeText (.mark .less :: (commas ws ++ [.mark .greater]))
  | function {ws : List (List Terminal)} {r : List Terminal} (h : ∀ w ∈ ws, IsTypeText w)
      (hr : IsTypeText r) :
      IsTypeText (.mark .openParen :: (commas ws ++ .mark .closeParen :: .mark .arrow :: r))

namespace IsTypeText

/-- A `?` behind a function type belongs to its result. -/
theorem exists_asked {t : TypeExpr} (ht : t.Printable) :
    ∃ u : TypeExpr, u.Printable ∧ u.print = t.print ++ [.mark .question] := by
  induction ht with
  | @function ps r span hparams _ _ ih =>
    obtain ⟨u, hu, hprint⟩ := ih
    refine ⟨.function ps u span, .function hparams hu, ?_⟩
    simp [TypeExpr.print, hprint]
  | @named s span => exact ⟨.optional _ span, .optional .named rfl, rfl⟩
  | @array t span h => exact ⟨.optional _ span, .optional (.array h) rfl, rfl⟩
  | @optional t span h hbase => exact ⟨.optional _ span, .optional (.optional h hbase) rfl, rfl⟩
  | @sum ts span hne h => exact ⟨.optional _ span, .optional (.sum hne h) rfl, rfl⟩

theorem exists_trees {ws : List (List Terminal)}
    (h : ∀ w ∈ ws, ∃ t : TypeExpr, t.Printable ∧ t.print = w) :
    ∃ ts : List TypeExpr, (∀ t ∈ ts, t.Printable) ∧ ts.map TypeExpr.print = ws := by
  induction ws with
  | nil => exact ⟨[], List.forall_mem_nil _, rfl⟩
  | cons w ws ih =>
    obtain ⟨hw, hws⟩ := List.forall_mem_cons.mp h
    obtain ⟨t, ht, rfl⟩ := hw
    obtain ⟨ts, hts, rfl⟩ := ih hws
    exact ⟨t :: ts, List.forall_mem_cons.mpr ⟨ht, hts⟩, rfl⟩

/-- Every annotation is the print of a tree. -/
theorem exists_tree {w : List Terminal} (h : IsTypeText w) :
    ∃ t : TypeExpr, t.Printable ∧ t.print = w := by
  induction h with
  | name s => exact ⟨.named s .nowhere, .named, rfl⟩
  | array _ ih =>
    obtain ⟨t, ht, rfl⟩ := ih
    exact ⟨.array t .nowhere, .array ht, rfl⟩
  | optional _ ih =>
    obtain ⟨t, ht, rfl⟩ := ih
    exact exists_asked ht
  | sum hne _ ih =>
    obtain ⟨ts, hts, rfl⟩ := exists_trees ih
    refine ⟨.sum ts .nowhere, .sum ?_ hts, by simp [TypeExpr.print]⟩
    rintro rfl
    exact hne rfl
  | function _ _ ih ihr =>
    obtain ⟨ts, hts, rfl⟩ := exists_trees ih
    obtain ⟨r, hr, rfl⟩ := ihr
    exact ⟨.function ts r .nowhere, .function hts hr, by simp [TypeExpr.print]⟩

end IsTypeText

/-! ## Terminals side by side in annotations -/

namespace Terminal

/-- The two may stand side by side. -/
def Meets (x y : Terminal) : Prop := (∃ d, x.joined? y = some d) ∨ x.Apart y

/-- The marks that an annotation stands behind. -/
def openers : List Mark := [.openBracket, .closeBracket, .less, .openParen, .comma, .arrow]

/-- The marks that stand behind an annotation. -/
def closers : List Mark := [.closeBracket, .question, .comma, .greater, .closeParen, .semicolon]

/-- An annotation may start with the terminal. -/
def Starts (x : Terminal) : Prop :=
  x.WellFormed ∧ ((∃ s, x = .name s) ∨ ∃ m ∈ [Mark.openBracket, .less, .openParen], x = .mark m)

/-- An annotation may end with the terminal. -/
def Closes (x : Terminal) : Prop :=
  (∃ s, x = .name s) ∨ ∃ m ∈ [Mark.closeBracket, .greater, .question], x = .mark m

theorem starts_mark {m : Mark} (hm : m ∈ [Mark.openBracket, .less, .openParen]) :
    (Terminal.mark m).Starts :=
  ⟨trivial, .inr ⟨m, hm, rfl⟩⟩

theorem closes_mark {m : Mark} (hm : m ∈ [Mark.closeBracket, .greater, .question]) :
    (Terminal.mark m).Closes :=
  .inr ⟨m, hm, rfl⟩

/-- The test of two marks. -/
def meetMarks (m k : Mark) : Bool :=
  (joined? (.mark m) (.mark k)).isSome ||
    (decide (m ≠ .slash) && !k.spelling.toList.head?.any m.joins)

theorem meets_marks {m k : Mark} (h : meetMarks m k = true) :
    (Terminal.mark m).Meets (.mark k) := by
  rcases Bool.or_eq_true_iff.mp h with hjoined | hapart
  · exact .inl (Option.isSome_iff_exists.mp hjoined)
  · obtain ⟨hslash, hnone⟩ := (Bool.and_eq_true _ _).mp hapart
    refine .inr ⟨of_decide_eq_true hslash, fun c hc => ?_⟩
    have hhead : k.spelling.toList.head? = some c := hc
    simpa [hhead] using hnone

theorem meets_starts {m : Mark} {y : Terminal} (hm : m ∈ openers) (hy : y.Starts) :
    (Terminal.mark m).Meets y := by
  obtain ⟨hwell, ⟨s, rfl⟩ | ⟨k, hk, rfl⟩⟩ := hy
  · obtain ⟨⟨c, cs, hs, hc, -⟩, -⟩ := hwell
    refine .inr ⟨?_, fun d hd => ?_⟩
    · rintro rfl
      simp [openers] at hm
    · rw [text, hs] at hd
      cases hd
      exact Mark.joins_of_isWordPart (Rule.isWordPart_of_isWordStart hc)
  · have hpairs : ∀ m ∈ openers, ∀ k ∈ [Mark.openBracket, .less, .openParen],
        meetMarks m k = true := by decide +kernel
    exact meets_marks (hpairs m hm k hk)

theorem meets_closers {x : Terminal} {k : Mark} (hx : x.Closes) (hk : k ∈ closers) :
    x.Meets (.mark k) := by
  obtain ⟨s, rfl⟩ | ⟨m, hm, rfl⟩ := hx
  · exact .inr fun c hc => Mark.isWordPart_of_mem (List.mem_of_mem_head? hc)
  · have hpairs : ∀ m ∈ [Mark.closeBracket, .greater, .question], ∀ k ∈ closers,
        meetMarks m k = true := by decide +kernel
    exact meets_marks (hpairs m hm k hk)

end Terminal

open Terminal

/-- The terminals may all stand side by side, and start and end like an annotation. -/
structure Edged (w : List Terminal) : Prop where
  ne_nil : w ≠ []
  chain : w.IsChain Meets
  starts : ∀ x ∈ w.head?, x.Starts
  closes : ∀ x ∈ w.getLast?, x.Closes

namespace Edged

variable {w v : List Terminal}

theorem before {k : Mark} (h : Edged w) (hk : k ∈ closers) (hv : (.mark k :: v).IsChain Meets) :
    (w ++ .mark k :: v).IsChain Meets := by
  refine h.chain.append hv fun x hx y hy => ?_
  cases hy
  exact meets_closers (h.closes x hx) hk

theorem behind {m : Mark} (h : Edged w) (hm : m ∈ openers) (hv : (w ++ v).IsChain Meets) :
    (.mark m :: (w ++ v)).IsChain Meets := by
  refine List.isChain_cons.mpr ⟨fun y hy => ?_, hv⟩
  rw [List.head?_append_of_ne_nil _ h.ne_nil] at hy
  exact meets_starts hm (h.starts y hy)

theorem behind_all {m : Mark} (h : Edged w) (hm : m ∈ openers) :
    (.mark m :: w).IsChain Meets := by
  have hbehind := h.behind (v := []) hm (by simpa using h.chain)
  rwa [List.append_nil] at hbehind

theorem name {s : String} (h : (Terminal.name s).WellFormed) : Edged [.name s] := by
  refine ⟨List.cons_ne_nil _ _, .singleton _, fun x hx => ?_, fun x hx => ?_⟩
  · cases hx
    exact ⟨h, .inl ⟨s, rfl⟩⟩
  · cases hx
    exact .inl ⟨s, rfl⟩

/-- Between two marks. -/
theorem enclosed {m k : Mark} (h : Edged w) (hm : m ∈ openers) (hk : k ∈ closers)
    (hstarts : (Terminal.mark m).Starts) (hcloses : (Terminal.mark k).Closes) :
    Edged (.mark m :: (w ++ [.mark k])) := by
  refine ⟨List.cons_ne_nil _ _, h.behind hm (h.before hk (.singleton _)), fun x hx => ?_,
    fun x hx => ?_⟩
  · cases hx
    exact hstarts
  · rw [List.getLast?_cons_of_ne_nil (by simp), List.getLast?_concat] at hx
    cases hx
    exact hcloses

theorem concat {k : Mark} (h : Edged w) (hk : k ∈ closers) (hcloses : (Terminal.mark k).Closes) :
    Edged (w ++ [.mark k]) := by
  refine ⟨by simp, h.before hk (.singleton _), fun x hx => ?_, fun x hx => ?_⟩
  · rw [List.head?_append_of_ne_nil _ h.ne_nil] at hx
    exact h.starts x hx
  · rw [List.getLast?_concat] at hx
    cases hx
    exact hcloses

theorem commas {ws : List (List Terminal)} (hne : ws ≠ []) (h : ∀ w ∈ ws, Edged w) :
    Edged (commas ws) := by
  induction ws with
  | nil => exact absurd rfl hne
  | cons w ws ih =>
    obtain ⟨hw, hws⟩ := List.forall_mem_cons.mp h
    cases ws with
    | nil => exact hw
    | cons u ws =>
      have hrest := ih (List.cons_ne_nil u ws) hws
      refine ⟨?_, hw.before (by decide) (hrest.behind_all (by decide)), ?_, ?_⟩
      · simp [Syntax.commas]
      · intro x hx
        rw [Syntax.commas, List.head?_append_of_ne_nil _ hw.ne_nil] at hx
        exact hw.starts x hx
      · intro x hx
        rw [Syntax.commas, List.getLast?_append_of_ne_nil _ (List.cons_ne_nil _ _),
          List.getLast?_cons_of_ne_nil hrest.ne_nil] at hx
        exact hrest.closes x hx

theorem function {ws : List (List Terminal)} (h : ∀ w ∈ ws, Edged w) (hv : Edged v) :
    Edged (.mark .openParen :: (Syntax.commas ws ++ .mark .closeParen :: .mark .arrow :: v)) := by
  have harrow : (Terminal.mark .closeParen :: .mark .arrow :: v).IsChain Meets :=
    List.isChain_cons_cons.mpr ⟨meets_marks (by decide +kernel), hv.behind_all (by decide)⟩
  refine ⟨List.cons_ne_nil _ _, ?_, fun x hx => ?_, fun x hx => ?_⟩
  · cases ws with
    | nil => exact List.isChain_cons_cons.mpr ⟨meets_marks (by decide +kernel), harrow⟩
    | cons u ws =>
      have hws : Edged (Syntax.commas (u :: ws)) := .commas (List.cons_ne_nil u ws) h
      exact hws.behind (by decide) (hws.before (by decide) harrow)
  · cases hx
    exact starts_mark (by decide)
  · rw [List.getLast?_cons_of_ne_nil (by simp),
      List.getLast?_append_of_ne_nil _ (List.cons_ne_nil _ _),
      List.getLast?_cons_of_ne_nil (List.cons_ne_nil _ _),
      List.getLast?_cons_of_ne_nil hv.ne_nil] at hx
    exact hv.closes x hx

end Edged

theorem mem_commas {ws : List (List Terminal)} {x : Terminal} (h : x ∈ commas ws) :
    x = .mark .comma ∨ ∃ w ∈ ws, x ∈ w := by
  fun_induction commas ws with
  | case1 => cases h
  | case2 w => exact .inr ⟨w, List.mem_cons_self, h⟩
  | case3 w u ws ih =>
    rcases List.mem_append.mp h with hw | hrest
    · exact .inr ⟨w, List.mem_cons_self, hw⟩
    · rcases List.mem_cons.mp hrest with rfl | hrest
      · exact .inl rfl
      · obtain hcomma | ⟨v, hv, hx⟩ := ih hrest
        · exact .inl hcomma
        · exact .inr ⟨v, List.mem_cons_of_mem _ hv, hx⟩

theorem subset_commas {ws : List (List Terminal)} {w : List Terminal} (hw : w ∈ ws) :
    w ⊆ commas ws := by
  fun_induction commas ws with
  | case1 => cases hw
  | case2 u =>
    rw [List.mem_singleton.mp hw]
    exact List.Subset.refl u
  | case3 v u ws ih =>
    rcases List.mem_cons.mp hw with rfl | hw
    · exact List.subset_append_left _ _
    · exact fun x hx => List.mem_append_right _ (List.mem_cons_of_mem _ (ih hw hx))

namespace IsTypeText

variable {w : List Terminal}

/-- Whatever blanks are left out, an annotation is read as terminals of its own, and some glued
pairs. -/
theorem edged (h : IsTypeText w) (hwell : ∀ x ∈ w, x.WellFormed) : Edged w := by
  induction h with
  | name s => exact .name (hwell _ List.mem_cons_self)
  | array _ ih =>
    have hw := ih fun x hx => hwell x (List.mem_cons_of_mem _ (List.mem_append_left _ hx))
    exact hw.enclosed (by decide) (by decide) (starts_mark (by decide)) (closes_mark (by decide))
  | optional _ ih =>
    have hw := ih fun x hx => hwell x (List.mem_append_left _ hx)
    exact hw.concat (by decide) (closes_mark (by decide))
  | @sum ws hne _ ih =>
    have hws : Edged (commas ws) := .commas hne fun w hw => ih w hw fun x hx =>
      hwell x (List.mem_cons_of_mem _ (List.mem_append_left _ (subset_commas hw hx)))
    exact hws.enclosed (by decide) (by decide) (starts_mark (by decide)) (closes_mark (by decide))
  | function _ _ ih ihr =>
    refine .function (fun w hw => ih w hw fun x hx => ?_) (ihr fun x hx => hwell x (by simp [hx]))
    exact hwell x (List.mem_cons_of_mem _ (List.mem_append_left _ (subset_commas hw hx)))

/-- No terminal of an annotation is what a pair is glued to. -/
theorem not_isClash (h : IsTypeText w) : ∀ x ∈ w, ¬ Setting.IsClash x.kind := by
  have hcommas : ∀ {ws : List (List Terminal)}, (∀ w ∈ ws, ∀ x ∈ w, ¬ Setting.IsClash x.kind) →
      ∀ x ∈ commas ws, ¬ Setting.IsClash x.kind := by
    intro ws hws x hx
    obtain rfl | ⟨w, hw, hxw⟩ := mem_commas hx
    · simp [Setting.IsClash, Terminal.kind]
    · exact hws w hw x hxw
  induction h with
  | name s => simp [Setting.IsClash, Terminal.kind]
  | array _ ih | optional _ ih =>
    simp only [List.forall_mem_cons, List.forall_mem_append]
    simpa [Setting.IsClash, Terminal.kind] using ih
  | sum _ _ ih =>
    simp only [List.forall_mem_cons, List.forall_mem_append]
    simpa [Setting.IsClash, Terminal.kind] using hcommas ih
  | function _ _ ih ihr =>
    simp only [List.forall_mem_cons, List.forall_mem_append]
    exact ⟨by simp [Setting.IsClash, Terminal.kind], hcommas ih,
      by simp [Setting.IsClash, Terminal.kind], by simp [Setting.IsClash, Terminal.kind], ihr⟩

end IsTypeText

end Quill
