import Quill.Proofs.Longest
import Mathlib.Data.List.Chain

/-!
# Terminals side by side

A blank between two terminals can often be left out. A `Setting` is a list of terminals, each with
whether a blank stands behind it. Where none does, the longest match decides: a name ends before a
mark; a mark ends unless some mark begins with it and with the next character. Two marks `<`, `>` or
`?` side by side are taken for one, which is the only way here in which terminals are glued.

Results:
* `Rule.first?_mark_of_joins`: a mark is taken for itself unless the next character makes it longer.
* `Terminal.first?_of_endsBefore`: so is a terminal that ends where the text goes on.
* `Setting.tokens_text`: the tokens of a text are those of its terminals, with pairs glued.
* **`Setting.tokenize_text`**: the same of a whole text, in terms of `Glued`.
-/

namespace Quill

/-! ## A mark and the next character -/

namespace Mark

/-- Some mark begins with this one and then the character. -/
def joins (m : Mark) (c : Char) : Bool :=
  all.any fun k => (m.spelling.toList ++ [c]).isPrefixOf k.spelling.toList

theorem mem_all (m : Mark) : m ∈ all := by
  cases m <;> decide

theorem eq_of_spelling {m k : Mark} (h : m.spelling.toList = k.spelling.toList) : m = k := by
  have hm := Rule.find?_spelling m
  rw [h, Rule.find?_spelling k] at hm
  exact (Option.some.inj hm).symm

/-- No mark has a character that a name may go on with. -/
theorem isWordPart_of_mem {m : Mark} {c : Char} (h : c ∈ m.spelling.toList) :
    Rule.isWordPart c = false := by
  have hall : m.spelling.toList.all (fun d => !Rule.isWordPart d) = true := by
    cases m <;> rfl
  simpa using List.all_eq_true.mp hall c h

theorem joins_of_isWordPart {m : Mark} {c : Char} (h : Rule.isWordPart c = true) :
    m.joins c = false := by
  rw [joins, List.any_eq_false]
  intro k _ hk
  have hmem : c ∈ k.spelling.toList :=
    (List.isPrefixOf_iff_prefix.mp hk).subset (List.mem_append_right _ List.mem_cons_self)
  rw [isWordPart_of_mem hmem] at h
  cases h

/-- The mark that two of the same are taken for. -/
def doubled? : Mark → Option Mark
  | .less => some .shiftLeft
  | .greater => some .shiftRight
  | .question => some .questionQuestion
  | _ => none

theorem spelling_doubled {m d : Mark} (h : m.doubled? = some d) :
    d.spelling.toList = m.spelling.toList ++ m.spelling.toList := by
  cases m <;> cases h <;> rfl

/-- No mark is longer than two of the same. -/
theorem joins_doubled {m d : Mark} (h : m.doubled? = some d) (c : Char) :
    d ≠ .slash ∧ d.joins c = false := by
  have hnone : ∀ k ∈ all, k.spelling.toList.length ≤ 2 ∨ k.spelling.toList.head? = some '.' := by
    decide
  have hlong : d.spelling.toList.length = 2 ∧ d.spelling.toList.head? ≠ some '.' ∧ d ≠ .slash := by
    cases m <;> cases h <;> decide
  refine ⟨hlong.2.2, ?_⟩
  rw [joins, List.any_eq_false]
  intro k hk hbegins
  obtain ⟨s, hs⟩ := List.isPrefixOf_iff_prefix.mp hbegins
  rcases hnone k hk with hshort | hdot
  · rw [← hs] at hshort
    simp only [List.length_append, List.length_cons] at hshort
    omega
  · refine hlong.2.1 ?_
    rw [← hs, List.append_assoc, List.head?_append_of_ne_nil _ ?_] at hdot
    · exact hdot
    · exact List.ne_nil_of_length_eq_add_one hlong.1

end Mark

namespace Rule

/-- A mark is taken for itself, unless the next character makes it longer. Two slashes are no mark,
but a comment. -/
theorem first?_mark_of_joins {m : Mark} {rest : List Char} (hm : m ≠ .slash)
    (h : ∀ c ∈ rest.head?, m.joins c = false) :
    first? (m.spelling.toList ++ rest) = some (.mark m, m.spelling.toList, rest) := by
  rw [first?_eq_some_iff]
  have hsplit : (Rule.mark m).split? (m.spelling.toList ++ rest) =
      some (m.spelling.toList, rest) := by simp [split?, Pattern.split?, splitSpelling?]
  have hrule := mark_mem_all m
  refine ⟨hrule, hsplit, fun other hmem l r hother hl => ?_⟩
  obtain ⟨c, s, hs, -, -, -, hquote, -⟩ := spelling_eq_cons m
  have hlead : other.lead = (Rule.mark m).lead :=
    Option.some.inj ((lead_of_split? hmem hl).symm.trans (lead_of_split? hrule hsplit))
  rw [show (Rule.mark m).lead = .char (m.spelling.toList.headD ' ') from rfl] at hlead
  cases hmem using mem_cases with
  | word | decimal | integer | blank => cases hlead
  | quoted =>
    rw [hs] at hlead
    exact absurd (Lead.char.inj hlead).symm hquote
  | comment =>
    have hslash : ∀ k : Mark, '/' = k.spelling.toList.headD ' ' → k = .slash := by
      intro k
      cases k <;> decide
    exact absurd (hslash m (Lead.char.inj hlead)) hm
  | mark k =>
    have hkm : k.spelling.toList ≠ m.spelling.toList := fun heq =>
      hother (congrArg Rule.mark (Mark.eq_of_spelling heq))
    obtain rfl : l = k.spelling.toList := eq_of_splitSpelling? hl
    have hkrest : k.spelling.toList <+: m.spelling.toList ++ rest := ⟨r, append_of_split? hl⟩
    rcases List.prefix_or_prefix_of_prefix hkrest (List.prefix_append _ rest) with hle | hge
    · exact utf8Len_lt_of_prefix hle hkm
    · -- a longer mark would begin with this one and the next character
      obtain ⟨s, hs⟩ := hge
      cases s with
      | nil => exact absurd (by simpa using hs.symm) hkm
      | cons c s =>
        rw [← hs, List.prefix_append_right_inj] at hkrest
        obtain ⟨r', hr'⟩ := hkrest
        have hjoins : m.joins c = true := by
          rw [Mark.joins, List.any_eq_true]
          refine ⟨k, k.mem_all, List.isPrefixOf_iff_prefix.mpr ⟨s, ?_⟩⟩
          rw [← hs, List.append_assoc, List.singleton_append]
        have hnot := h c (by rw [← hr']; rfl)
        rw [hjoins] at hnot
        cases hnot

end Rule

/-! ## Terminals -/

namespace Terminal

open Rule

/-- The mark that the two are taken for when they stand side by side, if they are glued. -/
def joined? : Terminal → Terminal → Option Mark
  | .mark m, .mark k => if m = k then m.doubled? else none
  | _, _ => none

theorem eq_of_joined? {x y : Terminal} {d : Mark} (h : x.joined? y = some d) :
    ∃ m : Mark, x = .mark m ∧ y = .mark m ∧ m.doubled? = some d := by
  unfold joined? at h
  split at h
  · rename_i m k
    split_ifs at h with hmk
    subst hmk
    exact ⟨m, rfl, rfl, h⟩
  · cases h

/-- The terminal ends where the text goes on like that. -/
def EndsBefore : Terminal → List Char → Prop
  | .mark m, rest => m ≠ .slash ∧ ∀ c ∈ rest.head?, m.joins c = false
  | .word _, rest | .name _, rest => Stops isWordPart rest
  | _, _ => False

/-- No blank is needed between the two. -/
def Apart (x y : Terminal) : Prop := x.EndsBefore y.text

theorem text_ne_nil {x : Terminal} (hx : x.WellFormed) : x.text ≠ [] := by
  cases x with
  | mark m =>
    obtain ⟨c, s, hs, -⟩ := spelling_eq_cons m
    rw [text, hs]
    exact List.cons_ne_nil c s
  | word k =>
    obtain ⟨c, s, hs, -⟩ := spelling_eq_word k
    rw [text, hs]
    exact List.cons_ne_nil c s
  | name s =>
    obtain ⟨⟨c, cs, hs, -⟩, -⟩ := hx
    rw [text, hs]
    exact List.cons_ne_nil c cs
  | integer s => exact hx.1
  | float s =>
    obtain ⟨whole, fraction, exponent, hs, -⟩ := hx
    rw [text, hs]
    simp
  | string s => exact List.cons_ne_nil _ _

/-- All that counts is the next character. -/
theorem EndsBefore.append {x : Terminal} {cs : List Char} (h : x.EndsBefore cs) (hne : cs ≠ [])
    (rest : List Char) : x.EndsBefore (cs ++ rest) := by
  have hhead : (cs ++ rest).head? = cs.head? := List.head?_append_of_ne_nil _ hne
  cases x with
  | mark m => exact ⟨h.1, by rw [hhead]; exact h.2⟩
  | word _ | name _ =>
    change ∀ c ∈ (cs ++ rest).head?, isWordPart c = false
    rw [hhead]
    exact h
  | integer _ | float _ | string _ => exact h.elim

theorem first?_of_endsBefore {x : Terminal} {rest : List Char} (hx : x.WellFormed)
    (h : x.EndsBefore rest) : ∃ rule, first? (x.text ++ rest) = some (rule, x.text, rest) ∧
      rule.token? x.text = some (x.kind, x.value) := by
  cases x with
  | mark m =>
    refine ⟨.mark m, first?_mark_of_joins h.1 h.2, ?_⟩
    simp [Rule.token?, Handler.token?, kind, value]
  | word k =>
    obtain ⟨c, s, hs, hc, hcs⟩ := spelling_eq_word k
    refine ⟨.word, ?_,
      by simp [Rule.token?, Handler.token?, text, kind, value, ofSpelling?_spelling]⟩
    rw [text, hs]
    exact first?_word_of_stops hc hcs h
  | name s =>
    -- which token a word is does not depend on what ends it
    obtain ⟨rule, hfirst, htoken⟩ := first?_text hx (.inl rfl : Ends [])
    obtain ⟨⟨c, cs, hs, hc, hcs⟩, -⟩ := hx
    have hword : first? ((Terminal.name s).text ++ []) =
        some (.word, (Terminal.name s).text, []) := by
      rw [text, hs]
      exact first?_word hc hcs (.inl rfl)
    obtain rfl : rule = .word := (Prod.mk.inj (Option.some.inj (hfirst.symm.trans hword))).1
    refine ⟨.word, ?_, htoken⟩
    rw [text, hs]
    exact first?_word_of_stops hc hcs h
  | integer _ | float _ | string _ => exact h.elim

end Terminal

/-! ## Settings -/

/-- Terminals, each with whether a blank stands behind it. -/
abbrev Setting := List (Terminal × Bool)

namespace Setting

/-- A blank, or nothing. -/
def gap (blank : Bool) : List Char := if blank then [' '] else []

/-- The text of the terminals. -/
def text : Setting → List Char
  | [] => []
  | (x, blank) :: xs => x.text ++ (gap blank ++ text xs)

/-- The terminals that are read, with pairs glued from left to right. -/
def glue : Setting → List Terminal
  | [] => []
  | [(x, _)] => [x]
  | (x, blank) :: (y, blank') :: xs =>
    match if blank then none else x.joined? y with
    | some d => .mark d :: glue xs
    | none => x :: glue ((y, blank') :: xs)

/-- The two may stand one behind the other: there is a blank between them, or they are glued or kept
apart. -/
def Follows (x y : Terminal × Bool) : Prop :=
  x.2 = true ∨ (∃ d, x.1.joined? y.1 = some d) ∨ x.1.Apart y.1

theorem stops_text {xs : Setting} (hxs : ∀ x ∈ xs, x.1.WellFormed) :
    Rule.Stops Text.isBlank (text xs) := by
  cases xs with
  | nil => simp [text, Rule.Stops]
  | cons x xs => exact Terminal.stops_text (hxs x List.mem_cons_self)

/-- The tokens behind a gap. -/
theorem tokens_gap {xs : Setting} (hxs : ∀ x ∈ xs, x.1.WellFormed) (blank : Bool)
    {P : List Token → Prop}
    (h : ∀ p : Position, ∃ ts, Reader.tokens ⟨text xs, p⟩ = .ok ts ∧ P ts) (p : Position) :
    ∃ ts, Reader.tokens ⟨gap blank ++ text xs, p⟩ = .ok ts ∧ P ts := by
  cases blank with
  | false => exact h p
  | true =>
    obtain ⟨ts, hts, hP⟩ := h (p.after [' '])
    exact ⟨ts, (Reader.tokens_of_skip (Rule.first?_blank (stops_text hxs)) rfl).trans hts, hP⟩

/-- The token of a terminal that ends before a gap or before what follows. -/
theorem tokens_cons {x : Terminal} {blank : Bool} {xs : Setting}
    {said : List (TokenKind × String)} (hx : x.WellFormed) (hxs : ∀ x ∈ xs, x.1.WellFormed)
    (hends : blank = true ∨ xs = [] ∨ x.EndsBefore (text xs))
    (h : ∀ p : Position, ∃ ts, Reader.tokens ⟨text xs, p⟩ = .ok ts ∧ ts.map Token.pair = said)
    (p : Position) : ∃ ts, Reader.tokens ⟨x.text ++ (gap blank ++ text xs), p⟩ = .ok ts ∧
      ts.map Token.pair = (x.kind, x.value) :: said := by
  have hfirst : ∃ rule, Rule.first? (x.text ++ (gap blank ++ text xs)) =
      some (rule, x.text, gap blank ++ text xs) ∧ rule.token? x.text = some (x.kind, x.value) := by
    cases blank with
    | true => exact Terminal.first?_text hx (.inr ⟨text xs, rfl⟩)
    | false =>
      obtain hblank | rfl | hends := hends
      · cases hblank
      · exact Terminal.first?_text hx (.inl rfl)
      · exact Terminal.first?_of_endsBefore hx hends
  obtain ⟨rule, hfirst, htoken⟩ := hfirst
  obtain ⟨ts, hts, hsays⟩ := tokens_gap hxs blank h (p.after x.text)
  refine ⟨_, Reader.tokens_of_token? hfirst htoken hts, ?_⟩
  rw [List.map_cons, hsays]
  rfl

/-- **The tokens of a text are those of its terminals, with pairs glued.** -/
theorem tokens_text {xs : Setting} (hxs : ∀ x ∈ xs, x.1.WellFormed) (hchain : xs.IsChain Follows) :
    ∀ p : Position, ∃ ts, Reader.tokens ⟨text xs, p⟩ = .ok ts ∧
      ts.map Token.pair = (glue xs).map (fun x => (x.kind, x.value)) ++ [(.eof, "EOF")] := by
  have hend : ∀ p : Position, ∃ ts, Reader.tokens ⟨text [], p⟩ = .ok ts ∧
      ts.map Token.pair = [(.eof, "EOF")] :=
    fun p => ⟨[.eofAt p], by rw [text, Reader.tokens], rfl⟩
  fun_induction glue xs with
  | case1 => exact hend
  | case2 x blank =>
    exact tokens_cons (hxs _ List.mem_cons_self) (List.forall_mem_nil _) (.inr (.inl rfl)) hend
  | case3 x blank y blank' xs d hd ih =>
    -- the two are one mark, which ends whatever follows
    have hrest : ∀ x ∈ xs, x.1.WellFormed := fun x hx =>
      hxs x (List.mem_cons_of_mem _ (List.mem_cons_of_mem _ hx))
    have htail := ih hrest (List.isChain_cons_cons.mp hchain).2.tail
    split_ifs at hd with hblank
    obtain ⟨m, rfl, rfl, hm⟩ := Terminal.eq_of_joined? hd
    have hends : (Terminal.mark d).EndsBefore (text xs) :=
      ⟨(Mark.joins_doubled hm ' ').1, fun c _ => (Mark.joins_doubled hm c).2⟩
    have htext : text ((.mark m, blank) :: (.mark m, blank') :: xs) =
        (Terminal.mark d).text ++ (gap blank' ++ text xs) := by
      simp [text, gap, hblank, Terminal.text, Mark.spelling_doubled hm]
    rw [htext]
    exact tokens_cons trivial hrest (.inr (.inr hends)) htail
  | case4 x blank y blank' xs hnone ih =>
    obtain ⟨hx, hxs⟩ := List.forall_mem_cons.mp hxs
    obtain ⟨hfollows, hchain⟩ := List.isChain_cons_cons.mp hchain
    refine tokens_cons hx hxs ?_ (ih hxs hchain)
    obtain hblank | ⟨d, hd⟩ | hapart := hfollows
    · exact .inl hblank
    · refine .inl ?_
      by_contra hblank
      rw [if_neg hblank] at hnone
      exact absurd (hd.symm.trans hnone) (Option.some_ne_none d)
    · exact .inr (.inr (hapart.append (Terminal.text_ne_nil (hxs _ List.mem_cons_self)) _))

/-! ## Pairs that no annotation has -/

/-- Two `<` or two `?` stand side by side. -/
def Clashes (xs : Setting) : Prop :=
  ∃ (m : Mark) (blank : Bool) (before after : Setting), (m = .less ∨ m = .question) ∧
    xs = before ++ (.mark m, false) :: (.mark m, blank) :: after

/-- What two `<` or two `?` are taken for. -/
def IsClash (kind : TokenKind) : Prop :=
  kind = .mark .shiftLeft ∨ kind = .mark .questionQuestion

theorem clashes_cons {x : Terminal} {blank : Bool} {ys : Setting} :
    Clashes ((x, blank) :: ys) ↔
      (blank = false ∧ ∃ m blank' zs, (m = .less ∨ m = .question) ∧ x = .mark m ∧
        ys = (.mark m, blank') :: zs) ∨ Clashes ys := by
  constructor
  · rintro ⟨m, blank', before, after, hm, h⟩
    cases before with
    | nil =>
      obtain ⟨hx, rfl⟩ := List.cons_eq_cons.mp h
      obtain ⟨rfl, rfl⟩ := Prod.mk.inj hx
      exact .inl ⟨rfl, m, blank', after, hm, rfl, rfl⟩
    | cons z before =>
      obtain ⟨-, rfl⟩ := List.cons_eq_cons.mp h
      exact .inr ⟨m, blank', before, after, hm, rfl⟩
  · rintro (⟨rfl, m, blank', zs, hm, rfl, rfl⟩ | ⟨m, blank', before, after, hm, rfl⟩)
    · exact ⟨m, blank', [], zs, hm, rfl⟩
    · exact ⟨m, blank', (x, blank) :: before, after, hm, rfl⟩

theorem not_clashes_nil : ¬ Clashes [] := by
  rintro ⟨m, blank, before, after, -, h⟩
  simp at h

/-- Where two are glued and one of them is no `>`, it shows. -/
theorem clashes_iff {xs : Setting} (hfree : ∀ x ∈ xs, ¬ IsClash x.1.kind) :
    xs.Clashes ↔ ∃ x ∈ glue xs, IsClash x.kind := by
  fun_induction glue xs with
  | case1 => simp [not_clashes_nil]
  | case2 x blank =>
    have hx := hfree _ List.mem_cons_self
    simp only [clashes_cons, not_clashes_nil, List.mem_singleton, exists_eq_left]
    simpa using hx
  | case3 x blank y blank' xs d hd ih =>
    have hrest : ∀ x ∈ xs, ¬ IsClash x.1.kind := fun x hx =>
      hfree x (List.mem_cons_of_mem _ (List.mem_cons_of_mem _ hx))
    split_ifs at hd with hblank
    obtain ⟨m, rfl, rfl, hm⟩ := Terminal.eq_of_joined? hd
    obtain rfl : blank = false := Bool.eq_false_iff.mpr hblank
    have hclash : m = .less ∨ m = .question ↔ IsClash (.mark d) := by
      cases m <;> cases hm <;> simp [IsClash]
    rw [clashes_cons, clashes_cons, ih hrest]
    constructor
    · rintro (⟨-, k, -, -, hk, hmk, -⟩ | ⟨-, k, -, -, hk, hmk, -⟩ | ⟨z, hz, hzclash⟩)
      · cases hmk
        exact ⟨_, List.mem_cons_self, hclash.mp hk⟩
      · cases hmk
        exact ⟨_, List.mem_cons_self, hclash.mp hk⟩
      · exact ⟨z, List.mem_cons_of_mem _ hz, hzclash⟩
    · rintro ⟨z, hz, hzclash⟩
      rcases List.mem_cons.mp hz with rfl | hz
      · exact .inl ⟨rfl, m, blank', xs, hclash.mpr hzclash, rfl, rfl⟩
      · exact .inr (.inr ⟨z, hz, hzclash⟩)
  | case4 x blank y blank' xs hnone ih =>
    rw [clashes_cons, ih fun z hz => hfree z (List.mem_cons_of_mem _ hz)]
    constructor
    · rintro (⟨rfl, m, b, zs, hm, rfl, hys⟩ | ⟨z, hz, hzclash⟩)
      · -- such a pair would have been glued
        cases hys
        obtain rfl | rfl := hm <;> cases hnone
      · exact ⟨z, List.mem_cons_of_mem _ hz, hzclash⟩
    · rintro ⟨z, hz, hzclash⟩
      rcases List.mem_cons.mp hz with rfl | hz
      · exact absurd hzclash (hfree _ List.mem_cons_self)
      · exact .inr ⟨z, hz, hzclash⟩

end Setting

/-! ## Tokens that say terminals, with pairs glued -/

/-- The tokens say the terminals, where one token may stand for two marks that are the same. -/
inductive Glued : List Token → List Terminal → Prop
  | nil : Glued [] []
  | one {u : Token} {us : List Token} {x : Terminal} {xs : List Terminal}
      (hu : u.terminal? = some x) (h : Glued us xs) : Glued (u :: us) (x :: xs)
  | two {u : Token} {us : List Token} {m d : Mark} {xs : List Terminal}
      (hm : m.doubled? = some d) (hu : u.kind = .mark d) (h : Glued us xs) :
      Glued (u :: us) (.mark m :: .mark m :: xs)

theorem Token.terminal?_of_pair {u : Token} {x : Terminal} (h : u.pair = (x.kind, x.value)) :
    u.terminal? = some x := by
  obtain ⟨kind, value, span⟩ := u
  obtain ⟨rfl, rfl⟩ := Prod.mk.inj h
  exact Token.terminal?_token x

namespace Setting

theorem glued {xs : Setting} : ∀ {us : List Token},
    us.map Token.pair = (glue xs).map (fun x => (x.kind, x.value)) → Glued us (xs.map (·.1)) := by
  fun_induction glue xs with
  | case1 =>
    intro us hus
    rw [List.map_eq_nil_iff.mp hus]
    exact .nil
  | case2 x blank =>
    intro us hus
    obtain ⟨u, us, rfl, hu, hus⟩ := List.map_eq_cons_iff.mp hus
    rw [List.map_eq_nil_iff.mp hus]
    exact .one (Token.terminal?_of_pair hu) .nil
  | case3 x blank y blank' xs d hd ih =>
    intro us hus
    obtain ⟨u, us, rfl, hu, hus⟩ := List.map_eq_cons_iff.mp hus
    split_ifs at hd with hblank
    obtain ⟨m, rfl, rfl, hm⟩ := Terminal.eq_of_joined? hd
    exact .two hm (Prod.mk.inj hu).1 (ih hus)
  | case4 x blank y blank' xs _ ih =>
    intro us hus
    obtain ⟨u, us, rfl, hu, hus⟩ := List.map_eq_cons_iff.mp hus
    exact .one (Token.terminal?_of_pair hu) (ih hus)

/-- **Leaving out blanks** glues pairs of marks and changes nothing else. It shows in the tokens
whether a pair has been glued that is not two `>`. -/
theorem tokenize_text {xs : Setting} (hxs : ∀ x ∈ xs, x.1.WellFormed)
    (hchain : xs.IsChain Follows) (hfree : ∀ x ∈ xs, ¬ IsClash x.1.kind) (file : String) :
    ∃ us last, tokenize (String.ofList (text xs)) file = .ok (us ++ [last]) ∧
      last.kind = .eof ∧ Glued us (xs.map (·.1)) ∧
      (xs.Clashes ↔ ∃ u ∈ us, IsClash u.kind) := by
  obtain ⟨ts, hts, hsays⟩ := tokens_text hxs hchain (.start file)
  obtain ⟨us, lasts, rfl, hus, hlasts⟩ := List.map_eq_append_iff.mp hsays
  obtain ⟨last, rfl, hlast⟩ := List.map_eq_singleton_iff.mp hlasts
  refine ⟨us, last, ?_, (Prod.mk.inj hlast).1, glued hus, ?_⟩
  · rw [tokenize, ← hts, Reader.ofText, String.toList_ofList]
  · have hkinds : us.map (·.kind) = (glue xs).map Terminal.kind := by
      have hfirsts := congrArg (List.map Prod.fst) hus
      rwa [List.map_map, List.map_map] at hfirsts
    have hmap : ∀ {α : Type} (f : α → TokenKind) (l : List α),
        (∃ a ∈ l, IsClash (f a)) ↔ ∃ kind ∈ l.map f, IsClash kind := by simp
    rw [clashes_iff hfree, hmap, ← hkinds, ← hmap]

end Setting

end Quill
