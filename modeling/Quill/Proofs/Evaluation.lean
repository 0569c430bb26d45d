import Quill.Proofs.Laws
import Quill.Proofs.Narrowing

/-!
# Simplification and evaluation

What a simplified expression evaluates to, and which events it leaves behind.

The value stays. Where an operator on floats gives way to an identity that does not hold of the
values at hand, it may not, so that is a premise (`FloatsAgree`); it is empty where there is no
arithmetic on floats.

The events stay too, except under the five rules that put a literal in the place of an operator with
an operand that has to be evaluated: `e * 0`, `0 * e`, `0 / e`, `1 ** e` and `e ** 0`. The calls of
such an operand are lost. `Silent` says of an operator of this kind that its operands record no
event; the events of an evaluation stay if and only if all the operators it meets are silent.

Results:
* `Expr.follows_simplify`: evaluation of the simplified expression follows that of the expression.
* **`Check.eval_simplify`**: the value of a checked expression without arithmetic on floats.
* **`Check.run_simplify`**: the events of a checked expression.
-/

namespace Quill.Typed

variable {α β γ : Type} {M : List (Event α) → Meaning α} {h : List (Event α)}

/-! ## Following an evaluation -/

/-- The meaning is the same at every point. -/
def Stateless (M : List (Event α) → Meaning α) : Prop := ∀ h k, M h = M k

namespace Traced

/-- **The one computation follows the other**, which starts from the events `h`: it has the same
result and leaves some of the events behind, in order, and all of them if and only if `P` holds. It
may start after other events only where they do not matter. -/
def Follows (M : List (Event α) → Meaning α) (y x : Traced α β) (h : List (Event α))
    (P : Prop) : Prop :=
  ∀ k, Stateless M ∨ k = h ∧ P → ∀ b t, x h = some (b, t) →
    ∃ u, y k = some (b, u) ∧ u.Sublist t ∧ (u = t ↔ P)

variable {x y : Traced α β} {f g : β → Traced α γ} {P P' : Prop}

theorem Follows.congr (hf : Follows M y x h P) (hP : P ↔ P') : Follows M y x h P' :=
  (propext hP) ▸ hf

/-- What has every result of a computation that follows another follows it, too. -/
theorem Follows.mono {z : Traced α β} (hf : Follows M y x h P)
    (hz : ∀ k b u, y k = some (b, u) → z k = some (b, u)) : Follows M z x h P := by
  intro k hk b t hx
  obtain ⟨u, hy, hu⟩ := hf k hk b t hx
  exact ⟨u, hz k b u hy, hu⟩

theorem follows_pure (b : β) : Follows M (pure b) (pure b) h True := by
  intro k _ c t hx
  cases hx
  exact ⟨[], rfl, .refl _, by simp⟩

theorem follows_fail : Follows M (fail : Traced α β) fail h True := by
  intro k _ c t hx
  cases hx

/-- Alternatives follow each other if the one that is chosen does. -/
theorem follows_choose {x' y' : Traced α β} {F G P Q : Prop} (a : Value α)
    (hyes : F → Follows M y x h P) (hno : G → Follows M y' x' h Q) (ha : a.choose F G True) :
    Follows M (a.choose y y' fail) (a.choose x x' fail) h (a.choose P Q True) := by
  unfold Value.choose at ha ⊢
  split
  · exact hyes ha
  · exact hno ha
  · exact follows_fail

/-- What only depends on the meaning follows itself. -/
theorem follows_answer (f : Meaning α → Option β) (events : List (Event α)) :
    Follows M (answer M f events) (answer M f events) h True := by
  intro k hk b t hx
  obtain ⟨hb, rfl⟩ := answer_eq_some.mp hx
  have hM : M k = M h := by
    rcases hk with hs | ⟨rfl, -⟩
    · exact hs k h
    · rfl
  exact ⟨t, answer_eq_some.mpr ⟨hM ▸ hb, rfl⟩, .refl _, by simp⟩

/-- Events that stay only in part do not add up to all of them. -/
theorem append_eq_append_iff_of_sublist {a b c d : List (Event α)} (hab : a.Sublist b)
    (hcd : c.Sublist d) : a ++ c = b ++ d ↔ a = b ∧ c = d := by
  constructor
  · intro h
    have hlen : a.length + c.length = b.length + d.length := by
      simpa using congrArg List.length h
    have := hab.length_le
    have := hcd.length_le
    exact List.append_inj h (by omega)
  · rintro ⟨rfl, rfl⟩
    rfl

/-- Computations that follow each other step by step do so as a whole. -/
theorem Follows.bind {Q : β → List (Event α) → Prop} (hx : Follows M y x h P)
    (hf : ∀ b t, x h = some (b, t) → Follows M (g b) (f b) (h ++ t) (Q b t)) :
    Follows M (y >>= g) (x >>= f) h (P ∧ ∀ b t, x h = some (b, t) → Q b t) := by
  intro k hk c t hrun
  obtain ⟨b, ta, tb, hxb, hfc, rfl⟩ := bind_eq_some.mp hrun
  obtain ⟨ua, hya, hsa, hea⟩ := hx k (hk.imp_right fun ⟨hkh, hP, _⟩ => ⟨hkh, hP⟩) b ta hxb
  have hk' : Stateless M ∨ k ++ ua = h ++ ta ∧ Q b ta :=
    hk.imp_right fun ⟨hkh, hP, hQ⟩ => ⟨by rw [hkh, hea.mpr hP], hQ b ta hxb⟩
  obtain ⟨ub, hgc, hsb, heb⟩ := hf b ta hxb (k ++ ua) hk' c tb hfc
  refine ⟨ua ++ ub, bind_eq_some.mpr ⟨b, ua, ub, hya, hgc, rfl⟩, hsa.append hsb, ?_⟩
  rw [append_eq_append_iff_of_sublist hsa hsb, hea, heb]
  refine and_congr_right fun _ => ⟨fun hQ b' t' hx' => ?_, fun hQ => hQ b ta hxb⟩
  rw [hxb] at hx'
  cases hx'
  exact hQ

/-- A computation whose result is passed on to the meaning can be followed if it can itself. -/
theorem Follows.bind_answer {f : β → Meaning α → Option γ} {events : β → List (Event α)}
    (hx : Follows M y x h P) : Follows M (y >>= fun b => answer M (f b) (events b))
      (x >>= fun b => answer M (f b) (events b)) h P := by
  refine (hx.bind fun b _ _ => follows_answer (f b) (events b)).congr ?_
  simp

end Traced

/-! ## Along an evaluation -/

namespace Expr

mutual

/-- The property holds of every node that evaluation from the events `h` meets, with the events that
come before it. -/
def Along (M : List (Event α) → Meaning α) (P : Expr → List (Event α) → Prop) :
    Expr → List (Event α) → Prop
  | .literal l, h => P (.literal l) h
  | .conditional test yes no t, h =>
    P (.conditional test yes no t) h ∧ Along M P test h ∧ ∀ a ta, run M test h = some (a, ta) →
      a.choose (Along M P yes (h ++ ta)) (Along M P no (h ++ ta)) True
  | .binary op left right t, h =>
    P (.binary op left right t) h ∧ Along M P left h ∧ ∀ a ta, run M left h = some (a, ta) →
      Meaning.needsRight op a = true → Along M P right (h ++ ta)
  | .unary op operand t, h => P (.unary op operand t) h ∧ Along M P operand h
  | .array elements t, h => P (.array elements t) h ∧ AlongAll M P elements h
  | .emptyArray t, h => P (.emptyArray t) h
  | .absent t, h => P (.absent t) h
  | .subscript items index t, h =>
    P (.subscript items index t) h ∧ Along M P items h ∧
      ∀ a ta, run M items h = some (a, ta) → Along M P index (h ++ ta)
  | .member object field chained t, h => P (.member object field chained t) h ∧ Along M P object h
  | .call callee args t, h =>
    P (.call callee args t) h ∧ Along M P callee h ∧
      ∀ a ta, run M callee h = some (a, ta) → AlongAll M P args (h ++ ta)
  | .construct id args, h => P (.construct id args) h ∧ AlongAll M P args h
  | .variable v, h => P (.variable v) h
  | .function f, h => P (.function f) h

/-- The property holds of every node that evaluation of the list from the events `h` meets. -/
def AlongAll (M : List (Event α) → Meaning α) (P : Expr → List (Event α) → Prop) :
    List Expr → List (Event α) → Prop
  | [], _ => True
  | e :: es, h =>
    Along M P e h ∧ ∀ a ta, run M e h = some (a, ta) → AlongAll M P es (h ++ ta)

end

/-- The operator gives way to a literal although an operand of it has to be evaluated. -/
def discards (op : BinaryOp) (left right : Expr) : Bool :=
  (replacement? op left.simplify right.simplify).any (·.isConstant)

/-- If the operator gives way to a literal, its operands record no event. -/
def Silent (M : List (Event α) → Meaning α) : Expr → List (Event α) → Prop
  | .binary op left right t, h => discards op left right = true →
    ∀ v u, run M (.binary op left right t) h = some (v, u) → u = []
  | _, _ => True

/-- The node is an arithmetic operator on floats. -/
def FloatArithmetic : Expr → Prop
  | .binary op _ _ t => op.isArithmetic = true ∧ t = .float
  | _ => False

/-- If the node is an arithmetic operator on floats that an identity replaces, the identity holds of
the values of the operands. -/
def FloatsAgree (M : List (Event α) → Meaning α) : Expr → List (Event α) → Prop
  | .binary op left right t, h => FloatArithmetic (.binary op left right t) →
    left.simplify.literal? = none ∨ right.simplify.literal? = none →
    ∀ w, replacement? op left.simplify right.simplify = some w →
    ∀ a ta b tb v, run M left h = some (a, ta) → run M right (h ++ ta) = some (b, tb) →
      (M (h ++ ta ++ tb)).binary op a b = some v →
      w.value (M (h ++ ta ++ tb)) t a b = some v
  | _, _ => True

/-! ## Operators -/

variable {op : BinaryOp} {l r : Expr} {t : Ty}

/-- The operands of the operator can be followed, whichever of them it evaluates. -/
theorem follows_binary {l' r' : Expr} {P : Prop} {Q : List (Event α) → Prop}
    (hl : Traced.Follows M (run M l') (run M l) h P)
    (hr : ∀ a ta, run M l h = some (a, ta) → Meaning.needsRight op a = true →
      Traced.Follows M (run M r') (run M r) (h ++ ta) (Q (h ++ ta))) :
    Traced.Follows M (run M (.binary op l' r' t)) (run M (.binary op l r t)) h
      (P ∧ ∀ a ta, run M l h = some (a, ta) → Meaning.needsRight op a = true → Q (h ++ ta)) := by
  rw [run, run]
  refine hl.bind (Q := fun a ta => Meaning.needsRight op a = true → Q (h ++ ta)) fun a ta ha => ?_
  split
  · rename_i hneed
    exact (hr a ta ha hneed).bind_answer.congr (by simp [hneed])
  · rename_i hneed
    exact (Traced.follows_answer _ []).congr (by simp [hneed])

theorem eq_literal_of_run {c : Literal} {v : Value α} {u : List (Event α)}
    (hrun : run M (.literal c) h = some (v, u)) : v = .literal c := by
  cases hrun
  rfl

theorem run_binary_literals {x y : Literal} {v : Value α} {u : List (Event α)}
    (hrun : run M (.binary op (.literal x) (.literal y) t) h = some (v, u)) : u = [] := by
  obtain ⟨a, ta, hx, ⟨-, b, tb, hy, -, rfl⟩ | ⟨-, -, rfl⟩⟩ := run_binary_eq_some.mp hrun
  · cases hx
    cases hy
    rfl
  · cases hx
    rfl

/-- An operator whose operands become literals, folded or not. -/
theorem follows_literals {x y : Literal} {P : Prop}
    (hf : Traced.Follows M (run M (.binary op (.literal x) (.literal y) t))
      (run M (.binary op l r t)) h P) :
    Traced.Follows M (run M (simplifyBinary op (.literal x) (.literal y) t))
      (run M (.binary op l r t)) h (Silent M (.binary op l r t) h ∧ P) := by
  have hsilent : P → Silent M (.binary op l r t) h := by
    intro hP _ v u hrun
    obtain ⟨u', hu', -, heq⟩ := hf h (.inr ⟨rfl, hP⟩) v u hrun
    rw [← heq.mpr hP, run_binary_literals hu']
  have hsame : run M (simplifyBinary op (.literal x) (.literal y) t) =
      run M (.binary op (.literal x) (.literal y) t) := by
    rw [simplifyBinary_literals]
    split
    · rename_i c hc
      exact run_fold hc
    · rfl
  rw [hsame]
  exact hf.congr (iff_and_self.mpr hsilent)

/-- An operator that gives way to an identity of arithmetic which holds of the values. -/
theorem follows_replacement {w : Replacement} {P : Prop} {Q : List (Event α) → Prop}
    (hop : op.isArithmetic = true) (hw : replacement? op l.simplify r.simplify = some w)
    (hl : Traced.Follows M (run M l.simplify) (run M l) h P)
    (hr : ∀ a ta, run M l h = some (a, ta) →
      Traced.Follows M (run M r.simplify) (run M r) (h ++ ta) (Q (h ++ ta)))
    (hv : ∀ a ta b tb v, run M l h = some (a, ta) → run M r (h ++ ta) = some (b, tb) →
      (∀ c, l.simplify = .literal c → a = .literal c) →
      (∀ c, r.simplify = .literal c → b = .literal c) →
      (M (h ++ ta ++ tb)).binary op a b = some v → w.value (M (h ++ ta ++ tb)) t a b = some v) :
    Traced.Follows M (run M (w.expr l.simplify r.simplify t)) (run M (.binary op l r t)) h
      (Silent M (.binary op l r t) h ∧ P ∧
        ∀ a ta, run M l h = some (a, ta) → Meaning.needsRight op a = true → Q (h ++ ta)) := by
  intro k hk v u hrun
  obtain ⟨a, ta, b, tb, hla, hrb, hab, rfl⟩ := (run_binary_of_isArithmetic hop).mp hrun
  have hneed := Meaning.needsRight_of_isArithmetic hop a
  obtain ⟨ua, hua, hsa, hea⟩ := hl k (hk.imp_right fun ⟨hkh, _, hP, _⟩ => ⟨hkh, hP⟩) a ta hla
  have hk' : Stateless M ∨ k ++ ua = h ++ ta ∧ Q (h ++ ta) := by
    refine hk.imp_right fun ⟨hkh, _, hP, hQ⟩ => ⟨?_, hQ a ta hla hneed⟩
    rw [hkh, hea.mpr hP]
  obtain ⟨ub, hub, hsb, heb⟩ := hr a ta hla (k ++ ua) hk' b tb hrb
  have hM : M (k ++ ua ++ ub) = M (h ++ ta ++ tb) := by
    rcases hk' with hs | ⟨hkh, hQ⟩
    · exact hs _ _
    · rw [hkh, heb.mpr hQ]
  have hval := hv a ta b tb v hla hrb (fun c hc => eq_literal_of_run (hc ▸ hua))
    (fun c hc => eq_literal_of_run (hc ▸ hub)) hab
  rw [← hM] at hval
  refine ⟨_, run_replacement (replaces_of_replacement? hw) hop hua hub hval, ?_, ?_⟩
  · split
    · exact List.nil_sublist _
    · exact hsa.append hsb
  have hd : discards op l r = w.isConstant := by rw [discards, hw, Option.any_some]
  have hall : ua ++ ub = ta ++ tb ↔ P ∧ ∀ a ta, run M l h = some (a, ta) →
      Meaning.needsRight op a = true → Q (h ++ ta) := by
    rw [Traced.append_eq_append_iff_of_sublist hsa hsb, hea, heb]
    refine and_congr_right fun _ => ⟨fun hQ a' ta' hla' _ => ?_, fun hQ => hQ a ta hla hneed⟩
    rw [hla] at hla'
    cases hla'
    exact hQ
  split
  · rename_i hc
    -- everything is discarded, so the events stay if and only if there are none
    constructor
    · intro hnil
      refine ⟨fun _ v' u' hrun' => ?_, hall.mp ?_⟩
      · rw [hrun] at hrun'
        cases hrun'
        exact hnil.symm
      · have hsub := hsa.append hsb
        rw [← hnil] at hsub ⊢
        exact List.sublist_nil.mp hsub
    · intro ⟨hs, _⟩
      exact (hs (hd.trans hc) v _ hrun).symm
  · rename_i hc
    have hs : Silent M (.binary op l r t) h := fun hdisc => absurd (hd ▸ hdisc) hc
    rw [hall]
    exact (and_iff_right hs).symm

theorem silent_of_discards_eq_false (hd : discards op l r = false) :
    Silent M (.binary op l r t) h := fun hd' => absurd (hd.symm.trans hd') Bool.false_ne_true

theorem discards_of_isArithmetic_eq_false (hop : op.isArithmetic = false) :
    discards op l r = false := by
  unfold discards
  cases hw : replacement? op l.simplify r.simplify with
  | none => rfl
  | some w =>
    rw [Option.any_some]
    cases replaces_of_replacement? hw with
    | false_or | or_false | true_or | true_and | and_true | false_and | absent_coalesce => rfl
    | _ => cases hop

/-- Simplified operands of an operator that is no float are no floats. -/
theorem simplify_ne_float {e : Expr} (he : e.Everywhere Ruled) {c : Basic} (hc : c ≠ .any)
    (hc' : c ≠ .float) (ht : e.type = .basic c) (x : Float) : e.simplify ≠ .float x := by
  intro hx
  have hn := narrows_simplify he
  rw [hx, ht] at hn
  exact hc' (Ty.basic.inj (hn.eq_basic hc)).symm

/-- An identity of arithmetic holds of the values at hand: on integers always, on floats where the
floats agree. -/
theorem value_of_ruled {w : Replacement} (he : (Expr.binary op l r t).Everywhere Ruled)
    (hf : FloatsAgree M (.binary op l r t) h) (hop : op.isArithmetic = true)
    (hlit : l.simplify.literal? = none ∨ r.simplify.literal? = none)
    (hw : replacement? op l.simplify r.simplify = some w) {a b v : Value α}
    {ta tb : List (Event α)} (hla : run M l h = some (a, ta))
    (hrb : run M r (h ++ ta) = some (b, tb))
    (ha : ∀ c, l.simplify = .literal c → a = .literal c)
    (hb : ∀ c, r.simplify = .literal c → b = .literal c)
    (hab : (M (h ++ ta ++ tb)).binary op a b = some v) :
    w.value (M (h ++ ta ++ tb)) t a b = some v := by
  by_cases ht : t = .float
  · exact hf ⟨hop, ht⟩ hlit w hw a ta b tb v hla hrb hab
  · have hacc : op.Accepts l.type r.type t := he.here
    obtain ⟨c, hc, hlc, hrl, htl⟩ : ∃ c, c ≠ Basic.any ∧ l.type = .basic c ∧ r.type = l.type ∧
        t = l.type := by
      cases op with
      | add =>
        obtain ⟨c, hc, hlc⟩ := Ty.eq_basic_of_isNumericOrString hacc.1
        exact ⟨c, hc, hlc, hacc.2⟩
      | subtract | multiply | divide | remainder | power =>
        obtain ⟨c, hc, hlc⟩ :=
          Ty.eq_basic_of_isNumericOrString (Ty.isNumericOrString_of_isNumeric hacc.1)
        exact ⟨c, hc, hlc, hacc.2⟩
      | _ => cases hop
    have hfloat : c ≠ .float := by
      rintro rfl
      exact ht (htl.trans hlc)
    exact Replacement.value_of_binary (replaces_of_replacement? hw) hop ht
      (simplify_ne_float (he.inside l (by simp [parts])) hc hfloat hlc)
      (simplify_ne_float (he.inside r (by simp [parts])) hc hfloat (hrl.trans hlc)) ha hb hab

/-- **A simplified operator follows the operator.** -/
theorem follows_simplifyBinary (he : (Expr.binary op l r t).Everywhere Ruled)
    (hf : FloatsAgree M (.binary op l r t) h)
    (hl : Traced.Follows M (run M l.simplify) (run M l) h (Along M (Silent M) l h))
    (hr : ∀ a ta, run M l h = some (a, ta) → Meaning.needsRight op a = true →
      Traced.Follows M (run M r.simplify) (run M r) (h ++ ta) (Along M (Silent M) r (h ++ ta))) :
    Traced.Follows M (run M (simplifyBinary op l.simplify r.simplify t))
      (run M (.binary op l r t)) h (Along M (Silent M) (.binary op l r t) h) := by
  have hkept := follows_binary (t := t) hl hr
  rw [Along]
  rcases both_literals_or l.simplify r.simplify with ⟨x, y, hx, hy⟩ | hlit
  · rw [hx, hy] at hkept ⊢
    exact follows_literals hkept
  rw [simplifyBinary_of_literal?_eq_none hlit]
  cases hw : replacement? op l.simplify r.simplify with
  | none =>
    have hd : discards op l r = false := by rw [discards, hw, Option.any_none]
    exact hkept.congr (and_iff_right (silent_of_discards_eq_false hd)).symm
  | some w =>
    by_cases hop : op.isArithmetic = true
    · exact follows_replacement hop hw hl
        (fun a ta hla => hr a ta hla (Meaning.needsRight_of_isArithmetic hop a))
        fun a ta b tb v => value_of_ruled he hf hop hlit hw
    · have hop := Bool.eq_false_iff.mpr hop
      refine (hkept.mono fun k v u => run_shortcut (replaces_of_replacement? hw) hop).congr ?_
      exact (and_iff_right
        (silent_of_discards_eq_false (discards_of_isArithmetic_eq_false hop))).symm

/-! ## Expressions -/

/-- Lists of expressions can be followed if their members can. -/
theorem follows_simplifyAll : ∀ {es : List Expr} {h : List (Event α)},
    (∀ e ∈ es, ∀ {h}, Along M (FloatsAgree M) e h →
      Traced.Follows M (run M e.simplify) (run M e) h (Along M (Silent M) e h)) →
    AlongAll M (FloatsAgree M) es h →
    Traced.Follows M (runAll M (simplifyAll es)) (runAll M es) h (AlongAll M (Silent M) es h)
  | [], _, _, _ => Traced.follows_pure []
  | e :: es, h, ih, hf => by
    obtain ⟨he, hes⟩ := List.forall_mem_cons.mp ih
    rw [simplifyAll, runAll, runAll, AlongAll]
    refine (he hf.1).bind fun a ta ha => ?_
    refine ((follows_simplifyAll hes (hf.2 a ta ha)).bind fun _ _ _ =>
      Traced.follows_pure _).congr ?_
    simp

/-- **Evaluation of the simplified expression follows that of the expression.** -/
theorem follows_simplify {e : Expr} (he : e.Everywhere Ruled) {h : List (Event α)}
    (hf : Along M (FloatsAgree M) e h) :
    Traced.Follows M (run M e.simplify) (run M e) h (Along M (Silent M) e h) := by
  induction e using Expr.induction generalizing h with
  | literal l => exact (Traced.follows_pure _).congr (by simp [Along, Silent])
  | absent t => exact (Traced.follows_pure _).congr (by simp [Along, Silent])
  | emptyArray t => exact (Traced.follows_answer _ _).congr (by simp [Along, Silent])
  | var v => exact (Traced.follows_answer _ _).congr (by simp [Along, Silent])
  | function f => exact (Traced.follows_answer _ _).congr (by simp [Along, Silent])
  | conditional test yes no t htest hyes hno =>
    simp only [simplify, run_simplifyConditional, run, Along, Silent, true_and]
    refine (htest (he.inside test (by simp [parts])) hf.2.1).bind fun a ta ha => ?_
    exact Traced.follows_choose a (hyes (he.inside yes (by simp [parts])))
      (hno (he.inside no (by simp [parts]))) (hf.2.2 a ta ha)
  | binary op left right t hl hr =>
    rw [simplify]
    exact follows_simplifyBinary he hf.1 (hl (he.inside left (by simp [parts])) hf.2.1)
      fun a ta ha hneed => hr (he.inside right (by simp [parts])) (hf.2.2 a ta ha hneed)
  | unary op operand t ih =>
    simp only [simplify, run_simplifyUnary, run, Along, Silent, true_and]
    exact (ih (he.inside operand (by simp [parts])) hf.2).bind_answer
  | array elements t ih =>
    simp only [simplify, run, Along, Silent, true_and]
    exact (follows_simplifyAll (fun e hm => ih e hm (he.inside e hm)) hf.2).bind_answer
  | subscript items index t hitems hindex =>
    simp only [simplify, run, Along, Silent, true_and]
    refine (hitems (he.inside items (by simp [parts])) hf.2.1).bind fun a ta ha => ?_
    exact (hindex (he.inside index (by simp [parts])) (hf.2.2 a ta ha)).bind_answer
  | member object field chained t ih =>
    simp only [simplify, run, Along, Silent, true_and]
    exact (ih (he.inside object (by simp [parts])) hf.2).bind_answer
  | call callee args t hcallee hargs =>
    simp only [simplify, run, Along, Silent, true_and]
    refine (hcallee (he.inside callee (by simp [parts])) hf.2.1).bind fun a ta ha => ?_
    have hall := follows_simplifyAll (fun e hm => hargs e hm (he.inside e (by simp [parts, hm])))
      (hf.2.2 a ta ha)
    exact hall.bind_answer
  | construct id args ih =>
    simp only [simplify, run, Along, Silent, true_and]
    exact (follows_simplifyAll (fun e hm => ih e hm (he.inside e hm)) hf.2).bind_answer

/-! ## Values -/

mutual

/-- What holds of every node, whatever comes before it, holds along every evaluation. -/
theorem along_of_everywhere {P : Expr → Prop} {Q : Expr → List (Event α) → Prop}
    (hPQ : ∀ e h, P e → Q e h) : ∀ (e : Expr) (h : List (Event α)), e.Everywhere P → Along M Q e h
  | .literal _, h, he | .emptyArray _, h, he | .absent _, h, he | .variable _, h, he
  | .function _, h, he => hPQ _ h he.here
  | .conditional test yes no _, h, he => by
    refine ⟨hPQ _ h he.here, along_of_everywhere hPQ test h (he.inside test (by simp [parts])),
      fun a ta _ => ?_⟩
    have hyes := along_of_everywhere hPQ yes (h ++ ta) (he.inside yes (by simp [parts]))
    have hno := along_of_everywhere hPQ no (h ++ ta) (he.inside no (by simp [parts]))
    unfold Value.choose
    split
    · exact hyes
    · exact hno
    · trivial
  | .binary op left right t, h, he =>
    ⟨hPQ _ h he.here, along_of_everywhere hPQ left h (he.inside left (by simp [parts])),
      fun _ ta _ _ => along_of_everywhere hPQ right (h ++ ta) (he.inside right (by simp [parts]))⟩
  | .unary op operand t, h, he =>
    ⟨hPQ _ h he.here, along_of_everywhere hPQ operand h (he.inside operand (by simp [parts]))⟩
  | .array elements t, h, he =>
    ⟨hPQ _ h he.here, alongAll_of_everywhere hPQ elements h he.inside⟩
  | .subscript items index t, h, he =>
    ⟨hPQ _ h he.here, along_of_everywhere hPQ items h (he.inside items (by simp [parts])),
      fun _ ta _ => along_of_everywhere hPQ index (h ++ ta) (he.inside index (by simp [parts]))⟩
  | .member object field chained t, h, he =>
    ⟨hPQ _ h he.here, along_of_everywhere hPQ object h (he.inside object (by simp [parts]))⟩
  | .call callee args t, h, he =>
    ⟨hPQ _ h he.here, along_of_everywhere hPQ callee h (he.inside callee (by simp [parts])),
      fun _ ta _ => alongAll_of_everywhere hPQ args (h ++ ta)
        fun e hm => he.inside e (by simp [parts, hm])⟩
  | .construct id args, h, he =>
    ⟨hPQ _ h he.here, alongAll_of_everywhere hPQ args h he.inside⟩

theorem alongAll_of_everywhere {P : Expr → Prop} {Q : Expr → List (Event α) → Prop}
    (hPQ : ∀ e h, P e → Q e h) : ∀ (es : List Expr) (h : List (Event α)),
    (∀ e ∈ es, e.Everywhere P) → AlongAll M Q es h
  | [], _, _ => trivial
  | e :: es, h, he =>
    ⟨along_of_everywhere hPQ e h (he e (by simp)),
      fun _ ta _ => alongAll_of_everywhere hPQ es (h ++ ta) fun e hm => he e (by simp [hm])⟩

end

/-- The node obeys its rule, and is no arithmetic on floats: simplification keeps its value. -/
def Exact (e : Expr) : Prop := e.Ruled ∧ ¬ e.FloatArithmetic

theorem Exact.floatsAgree {e : Expr} (he : e.Exact) (M : List (Event α) → Meaning α)
    (h : List (Event α)) : FloatsAgree M e h := by
  cases e with
  | binary op left right t => exact fun hfloat => absurd hfloat he.2
  | _ => trivial

variable {N : Meaning α} {e : Expr} {es : List Expr}

theorem eval_simplify_of_exact (he : e.Everywhere Exact) {v : Value α} (hv : e.eval N = some v) :
    e.simplify.eval N = some v := by
  obtain ⟨⟨_, t⟩, hrun, rfl⟩ := Option.map_eq_some_iff.mp hv
  have hf : Along (fun _ => N) (FloatsAgree fun _ => N) e [] :=
    along_of_everywhere (fun _ h he => he.floatsAgree _ h) e [] he
  have hruled : e.Everywhere Ruled := he.imp fun _ he => he.1
  obtain ⟨u, hu, -⟩ := follows_simplify hruled hf [] (.inl fun _ _ => rfl) _ t hrun
  exact Option.map_eq_some_iff.mpr ⟨_, hu, rfl⟩

theorem evalAll_simplify_of_exact (he : ∀ e ∈ es, e.Everywhere Exact) {vs : List (Value α)}
    (hv : evalAll N es = some vs) : evalAll N (simplifyAll es) = some vs := by
  obtain ⟨⟨_, t⟩, hrun, rfl⟩ := Option.map_eq_some_iff.mp hv
  have hf : AlongAll (fun _ => N) (FloatsAgree fun _ => N) es [] :=
    alongAll_of_everywhere (fun _ h he => he.floatsAgree _ h) es [] he
  have hes : ∀ e ∈ es, e.Everywhere Ruled := fun e hm => (he e hm).imp fun _ he => he.1
  obtain ⟨u, hu, -⟩ := follows_simplifyAll (fun e hm => follows_simplify (hes e hm)) hf []
    (.inl fun _ _ => rfl) _ t hrun
  exact Option.map_eq_some_iff.mpr ⟨_, hu, rfl⟩

end Expr

end Quill.Typed

/-! ## Checked expressions -/

namespace Quill.Check

open Typed (Value Event Meaning Stateless)

variable {α : Type} {env : Env} {s : Syntax.Expr} {e : Typed.Expr}

/-- **Simplification keeps values.** If a checked expression has no arithmetic on floats, its value
stays, whatever variables, functions, calls, structs, arrays, elements, fields and lengths mean. -/
theorem eval_simplify (he : expr env s = .ok e) (hn : e.Everywhere (¬ Typed.Expr.FloatArithmetic ·))
    (M : Meaning α) {v : Value α} (hv : e.eval M = some v) : e.simplify.eval M = some v :=
  Typed.Expr.eval_simplify_of_exact ((expr_ruled env he).and hn) hv

/-! ### Samples -/

namespace Sample

/-- An integer. -/
def n : Variable := ⟨0, "n", false, .int⟩

/-- A truth value. -/
def b : Variable := ⟨1, "b", false, .bool⟩

/-- A float. -/
def x : Variable := ⟨2, "x", false, .float⟩

/-- A function that gives an integer. -/
def f : Function := ⟨0, "f", [], .int⟩

/-- The scope in which they are declared. -/
def scope : Env :=
  ⟨(((Scopes.root.define "n" (.variable n)).define "b" (.variable b)).define "x"
    (.variable x)).define "f" (.function f), .empty⟩

/-- `n` is 7, `b` is true and `x` is 2.5. -/
def meaning : Meaning Nat := .sample fun v =>
  if v = n then some (.literal (.int 7))
  else if v = b then some (.literal (.bool true))
  else if v = x then some (.literal (.float 2.5))
  else none

/-- `0 - (b || false ? n * 1 : n ** 0)` -/
def negation : Syntax.Expr :=
  let s : Span := default
  .binary .subtract (.int 0 s)
    (.conditional (.binary .or (.symbol "b" s) (.bool false s) s)
      (.binary .multiply (.symbol "n" s) (.int 1 s) s)
      (.binary .power (.symbol "n" s) (.int 0 s) s) s) s

/-- `negation` once it is checked. -/
def checkedNegation : Typed.Expr :=
  .binary .subtract (.int 0)
    (.conditional (.binary .or (.variable b) (.bool false) .bool)
      (.binary .multiply (.variable n) (.int 1) .int)
      (.binary .power (.variable n) (.int 0) .int) .int) .int

end Sample

theorem eval_simplify_negation :
    expr Sample.scope Sample.negation = .ok Sample.checkedNegation ∧
      Sample.checkedNegation.Everywhere (¬ Typed.Expr.FloatArithmetic ·) ∧
      Sample.checkedNegation.eval Sample.meaning = some (.literal (.int (-7))) ∧
      Sample.checkedNegation.simplify.eval Sample.meaning = some (.literal (.int (-7))) := by
  have he : expr Sample.scope Sample.negation = .ok Sample.checkedNegation := rfl
  have hn : Sample.checkedNegation.Everywhere (¬ Typed.Expr.FloatArithmetic ·) := by
    simp [Sample.checkedNegation, Typed.Expr.Everywhere.iff_forall, Typed.Expr.parts,
      Typed.Expr.FloatArithmetic]
  have hv : Sample.checkedNegation.eval Sample.meaning = some (.literal (.int (-7))) := rfl
  exact ⟨he, hn, hv, eval_simplify he hn _ hv⟩

/-- **Simplification keeps the calls that it does not discard.** If the operators that give way to a
literal record no event, the simplified expression has the same value and records the same events;
calls may depend on the calls before them. If they do not, some of the events stay, in order, and
all of them do only in this case. -/
theorem run_simplify (he : expr env s = .ok e) (M : List (Event α) → Meaning α)
    {h t : List (Event α)} (hf : e.Along M (Typed.Expr.FloatsAgree M) h) {v : Value α}
    (hrun : e.run M h = some (v, t)) :
    (e.Along M (Typed.Expr.Silent M) h → e.simplify.run M h = some (v, t)) ∧
    (Stateless M → ∃ u, e.simplify.run M h = some (v, u) ∧ u.Sublist t ∧
      (u = t ↔ e.Along M (Typed.Expr.Silent M) h)) := by
  have hfollows := Typed.Expr.follows_simplify (expr_ruled env he) hf
  constructor
  · intro hs
    obtain ⟨u, hu, -, heq⟩ := hfollows h (.inr ⟨rfl, hs⟩) v t hrun
    rw [hu, heq.mpr hs]
  · intro hM
    exact hfollows h (.inl hM) v t hrun

namespace Sample

/-- `(x + 0.0 > 1.0 ? f() : 2) + n * 0` -/
def calling : Syntax.Expr :=
  let s : Span := default
  .binary .add
    (.conditional
      (.binary .greater (.binary .add (.symbol "x" s) (.float 0.0 s) s) (.float 1.0 s) s)
      (.call (.symbol "f" s) [] s) (.int 2 s) s)
    (.binary .multiply (.symbol "n" s) (.int 0 s) s) s

/-- `calling` once it is checked. -/
def checkedCalling : Typed.Expr :=
  .binary .add
    (.conditional
      (.binary .greater (.binary .add (.variable x) (.float 0.0) .float) (.float 1.0) .bool)
      (.call (.function f) [] .int) (.int 2) .int)
    (.binary .multiply (.variable n) (.int 0) .int) .int

/-- `f() * 0` -/
def lossy : Syntax.Expr :=
  let s : Span := default
  .binary .multiply (.call (.symbol "f" s) [] s) (.int 0 s) s

/-- `lossy` once it is checked. -/
def checkedLossy : Typed.Expr :=
  .binary .multiply (.call (.function f) [] .int) (.int 0) .int

/-- `1.0 / (-x * 0.0) > 0.0 ? f() : 2` -/
def gaining : Syntax.Expr :=
  let s : Span := default
  .conditional
    (.binary .greater
      (.binary .divide (.float 1.0 s)
        (.binary .multiply (.unary .negate (.symbol "x" s) s) (.float 0.0 s) s) s)
      (.float 0.0 s) s)
    (.call (.symbol "f" s) [] s) (.int 2 s) s

/-- `gaining` once it is checked. -/
def checkedGaining : Typed.Expr :=
  .conditional
    (.binary .greater
      (.binary .divide (.float 1.0)
        (.binary .multiply (.unary .negate (.variable x) .float) (.float 0.0) .float) .float)
      (.float 0.0) .bool)
    (.call (.function f) [] .int) (.int 2) .int

end Sample

theorem run_simplify_calling :
    expr Sample.scope Sample.calling = .ok Sample.checkedCalling ∧
      Sample.checkedCalling.run (fun _ => Sample.meaning) [] =
        some (.literal (.int 5), [.call (.other 0) []]) ∧
      Sample.checkedCalling.simplify.run (fun _ => Sample.meaning) [] =
        some (.literal (.int 5), [.call (.other 0) []]) := by
  have he : expr Sample.scope Sample.calling = .ok Sample.checkedCalling := rfl
  have hrun : Sample.checkedCalling.run (fun _ => Sample.meaning) [] =
      some (.literal (.int 5), [.call (.other 0) []]) := rfl
  refine ⟨he, hrun, (run_simplify he _ ?_ hrun).1 ?_⟩
  · refine ⟨nofun, ⟨trivial, ⟨nofun, ⟨?_, trivial, fun _ _ _ _ => trivial⟩,
      fun _ _ _ _ => trivial⟩, fun a ta ha => ?_⟩,
      fun _ _ _ _ => ⟨nofun, trivial, fun _ _ _ _ => trivial⟩⟩
    · -- 2.5 + 0.0 is 2.5
      intro _ _ w hw a ta b tb v ha hb hv
      cases hw
      cases ha
      cases hb
      exact hv
    · cases ha
      exact ⟨trivial, trivial, fun _ _ _ => trivial⟩
  · refine ⟨nofun, ⟨trivial, ⟨nofun, ⟨nofun, trivial, fun _ _ _ _ => trivial⟩,
      fun _ _ _ _ => trivial⟩, fun a ta ha => ?_⟩,
      fun _ _ _ _ => ⟨?_, trivial, fun _ _ _ _ => trivial⟩⟩
    · cases ha
      exact ⟨trivial, trivial, fun _ _ _ => trivial⟩
    · -- `n * 0` is discarded, and records nothing
      intro _ v u hrun
      cases hrun
      rfl

/-- **A discarded call is lost**, and an identity that does not hold of floats can bring in a call
that was not there: `-2.5 * 0.0` is the negative zero. -/
theorem run_simplify_lossy :
    (expr Sample.scope Sample.lossy = .ok Sample.checkedLossy ∧
      Sample.checkedLossy.run (fun _ => Sample.meaning) [] =
        some (.literal (.int 0), [.call (.other 0) []]) ∧
      Sample.checkedLossy.simplify.run (fun _ => Sample.meaning) [] =
        some (.literal (.int 0), [])) ∧
    (expr Sample.scope Sample.gaining = .ok Sample.checkedGaining ∧
      Sample.checkedGaining.run (fun _ => Sample.meaning) [] = some (.literal (.int 2), []) ∧
      Sample.checkedGaining.simplify.run (fun _ => Sample.meaning) [] =
        some (.literal (.int 5), [.call (.other 0) []])) :=
  ⟨⟨rfl, rfl, rfl⟩, rfl, rfl, rfl⟩

end Quill.Check
