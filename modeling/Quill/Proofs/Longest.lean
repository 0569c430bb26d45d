import Quill.Proofs.Tiling

/-!
# The first rule that matches takes the most

The rules are tried in the order of a table, and the first one that matches decides. Another one may
match as well: a number that goes on behind a point starts with an integer, a comment with a slash,
and a mark with another mark. The table has the longer one first each time, so that to take the
first match is to take the longest, and no two are equally long. How far the scan moves on is up to
the handler of the row, and that of a mark does not look at the match; since the two have one text
in each row (`Rule.length_of_split?`), it moves on by the match.

Which rules can compete at all is settled by the first character (`Lead`). So only few pairs of the
table are left to look at, and `Outranks` says of these what makes the first match longer.

A scan can therefore be described without the table: `Reader.Munches` takes the longest match of all
at each place, and moves on by its bytes.

Results:
* `shorter_of_outranks`, `pairwise_all`: an earlier rule takes more than a later one.
* `first?_eq_some_iff`: the first match is the longest.
* `le_of_accepts`: no rule has a longer match for any beginning of the text.
* `Reader.advance_of_split?`: moving on by the bytes of a match leads behind it.
* `Reader.munches_iff`: scanning is taking the longest match again and again.
* **`tokenize_longest`**: all of it.
-/

namespace Quill

open String (utf8Len)

namespace Rule

variable {rule other : Rule} {cs lexeme rest l r : List Char}

/-- The rule matches the start of the text, and every other rule that does so takes fewer bytes. -/
structure Longest (cs : List Char) (rule : Rule) (lexeme rest : List Char) : Prop where
  mem : rule ∈ all
  split : rule.split? cs = some (lexeme, rest)
  shorter : ∀ other ∈ all, ∀ l r, other ≠ rule → other.split? cs = some (l, r) →
    utf8Len l < utf8Len lexeme

/-! ## Which rules compete -/

/-- What a match may start with: a character of a class, or a certain one. -/
inductive Lead where
  | word
  | digit
  | blank
  | char (c : Char)
deriving DecidableEq

/-- What a match at the character starts with. -/
def Lead.ofChar (c : Char) : Lead :=
  if isWordStart c then .word else if c.isDigit then .digit else if Text.isBlank c then .blank
  else .char c

/-- What the matches of a rule start with. -/
def lead (rule : Rule) : Lead :=
  match rule.pattern with
  | .word => .word
  | .decimal | .integer => .digit
  | .blank => .blank
  | .quoted => .char '"'
  | .comment => .char '/'
  | .literal text => .char (text.toList.headD ' ')

theorem lead_of_run? {p : Char → Bool} {lead : Lead} (h : run? p cs = some (lexeme, rest))
    (hp : ∀ c, p c = true → Lead.ofChar c = lead) : cs.head?.map Lead.ofChar = some lead := by
  obtain ⟨c, lexeme, rfl⟩ := List.exists_cons_of_ne_nil (ne_nil_of_run? h)
  rw [← append_of_run? h]
  exact congrArg some (hp c (all_of_run? h c List.mem_cons_self))

/-- The first character tells what a match there starts with. -/
theorem lead_of_split? (hrule : rule ∈ all) (h : rule.split? cs = some (lexeme, rest)) :
    cs.head?.map Lead.ofChar = some rule.lead := by
  have hdigit : ∀ c : Char, c.isDigit = true → Lead.ofChar c = .digit := by
    intro c hc
    simp [Lead.ofChar, isWordStart_of_isDigit hc, hc]
  cases hrule using mem_cases with
  | word =>
    simp only [split?, Pattern.split?] at h
    split at h
    · rename_i c cs
      split_ifs at h with hc
      simp [Lead.ofChar, lead, hc]
    · cases h
  | decimal =>
    simp only [split?, Pattern.split?, splitDecimal?] at h
    split at h
    · rename_i hrun
      exact lead_of_run? hrun hdigit
    · cases h
  | integer => exact lead_of_run? h hdigit
  | blank =>
    refine lead_of_run? h fun c hc => ?_
    have hpart : isWordPart c = false := by
      by_contra hpart
      rw [Bool.not_eq_false] at hpart
      simp [isBlank_of_isWordPart hpart] at hc
    have hword : isWordStart c = false := by
      by_contra hword
      rw [Bool.not_eq_false] at hword
      simp [isWordPart_of_isWordStart hword] at hpart
    have hnot : c.isDigit = false := by
      by_contra hnot
      rw [Bool.not_eq_false] at hnot
      simp [isWordPart, Char.isAlphanum, hnot] at hpart
    simp [Lead.ofChar, lead, hword, hnot, hc]
  | quoted =>
    simp only [split?, Pattern.split?] at h
    split at h
    · rfl
    · cases h
  | comment =>
    simp only [split?, Pattern.split?] at h
    split at h
    · rfl
    · cases h
  | mark m =>
    obtain ⟨c, s, hs, hword, hnot, hblank, -⟩ := spelling_eq_cons m
    rw [← append_of_split? h, eq_of_splitSpelling? h]
    simp [Lead.ofChar, lead, hs, hword, hnot, hblank]

/-- The first rule takes more than the second wherever both match. -/
def Outranks (rule other : Rule) : Bool :=
  match rule.pattern, other.pattern with
  | .decimal, .integer => true
  | .comment, .literal text => text.toList = ['/']
  | .literal text, .literal part => !text.toList.isPrefixOf part.toList
  | _, _ => false

/-- In the table, an earlier rule outranks every later one that it competes with. -/
theorem pairwise_all : all.Pairwise fun a b => a.lead = b.lead → a.Outranks b = true := by
  decide +kernel

/-! ## The first match is the longest -/

theorem utf8Len_lt_of_prefix (h : l <+: lexeme) (hne : l ≠ lexeme) :
    utf8Len l < utf8Len lexeme := by
  obtain ⟨t, rfl⟩ := h
  have ht : t ≠ [] := fun ht => hne (by simp [ht])
  have hsize : utf8Len t ≠ 0 := fun hzero => ht (String.utf8Len_eq_zero.mp hzero)
  rw [String.utf8Len_append]
  omega

/-- Two texts that both match: the one is a part of the other. -/
theorem shorter_of_literal {text part : List Char}
    (htext : splitSpelling? text cs = some (lexeme, rest))
    (hpart : splitSpelling? part cs = some (l, r)) (hbegins : text.isPrefixOf part = false) :
    utf8Len l < utf8Len lexeme := by
  have hlexeme : lexeme <+: cs := ⟨rest, append_of_splitSpelling? htext⟩
  have hl : l <+: cs := ⟨r, append_of_splitSpelling? hpart⟩
  obtain rfl := eq_of_splitSpelling? htext
  obtain rfl := eq_of_splitSpelling? hpart
  have hnot : ¬ lexeme <+: l := by
    rw [← List.isPrefixOf_iff_prefix, hbegins]
    exact Bool.false_ne_true
  rcases List.prefix_or_prefix_of_prefix hlexeme hl with h | h
  · exact absurd h hnot
  · exact utf8Len_lt_of_prefix h fun heq => hnot (by rw [heq])

/-- **A rule that outranks another takes more.** -/
theorem shorter_of_outranks (h : rule.Outranks other = true)
    (hrule : rule.split? cs = some (lexeme, rest)) (hother : other.split? cs = some (l, r)) :
    utf8Len l < utf8Len lexeme := by
  unfold Outranks at h
  unfold split? at hrule hother
  split at h
  · -- an integer is what stands before the point
    rename_i hdecimal hinteger
    simp only [hdecimal, hinteger, Pattern.split?] at hrule hother
    rw [splitDecimal?, hother] at hrule
    split at hrule
    · rename_i heq
      split at hrule
      · obtain ⟨rfl, -⟩ := Prod.mk.inj (Option.some.inj hrule)
        obtain ⟨rfl, -⟩ := Prod.mk.inj (Option.some.inj heq)
        refine utf8Len_lt_of_prefix ?_ (by simp)
        rw [List.append_assoc]
        exact List.prefix_append _ _
      · cases hrule
    · cases hrule
  · -- a slash is what a comment starts with
    rename_i text hcomment hliteral
    simp only [hcomment, hliteral, Pattern.split?] at hrule hother
    rw [of_decide_eq_true h] at hother
    obtain rfl := eq_of_splitSpelling? hother
    split at hrule
    · obtain ⟨rfl, -⟩ := Prod.mk.inj (Option.some.inj hrule)
      exact utf8Len_lt_of_prefix ⟨_, rfl⟩ (by simp)
    · cases hrule
  · rename_i htext hpart
    simp only [htext, hpart, Pattern.split?] at hrule hother
    exact shorter_of_literal hrule hother (by simpa using h)
  · cases h

/-- The first match is the first in the order of the table. -/
theorem exists_rows_of_first? (h : first? cs = some (rule, lexeme, rest)) : ∃ before after,
    all = before ++ rule :: after ∧ ∀ earlier ∈ before, earlier.split? cs = none := by
  obtain ⟨before, row, after, hall, hrow, hbefore⟩ := List.findSome?_eq_some_iff.mp h
  obtain ⟨s, -, heq⟩ := Option.map_eq_some_iff.mp hrow
  obtain ⟨rfl, -⟩ := Prod.mk.inj heq
  exact ⟨before, after, hall, fun earlier hmem => Option.map_eq_none_iff.mp (hbefore earlier hmem)⟩

/-- The first match is longer than that of any other rule. -/
theorem longest_of_first? (h : first? cs = some (rule, lexeme, rest)) :
    Longest cs rule lexeme rest := by
  have hsplit := split?_of_first? h
  have hrule := mem_of_first? h
  refine ⟨hrule, hsplit, fun other hmem l r hne hother => ?_⟩
  obtain ⟨before, after, hall, hbefore⟩ := exists_rows_of_first? h
  have hlater : other ∈ after := by
    rcases List.mem_append.mp (hall ▸ hmem) with hearlier | hnext
    · cases (hbefore other hearlier).symm.trans hother
    · exact (List.mem_cons.mp hnext).resolve_left hne
  have hpairs := pairwise_all
  rw [hall, List.pairwise_append] at hpairs
  have hranks := (List.pairwise_cons.mp hpairs.2.1).1 other hlater
  have hlead : rule.lead = other.lead :=
    Option.some.inj ((lead_of_split? hrule hsplit).symm.trans (lead_of_split? hmem hother))
  exact shorter_of_outranks (hranks hlead) hsplit hother

/-- Where a rule matches, there is a first one. -/
theorem exists_first? (hrule : rule ∈ all) (h : rule.split? cs = some (lexeme, rest)) :
    ∃ rule' lexeme' rest', first? cs = some (rule', lexeme', rest') := by
  cases hfirst : first? cs with
  | none =>
    rw [split?_eq_none_of_first? hfirst rule hrule] at h
    cases h
  | some found => exact ⟨found.1, found.2.1, found.2.2, rfl⟩

/-- **The first match is the longest**, whatever the order of the table. -/
theorem first?_eq_some_iff :
    first? cs = some (rule, lexeme, rest) ↔ Longest cs rule lexeme rest := by
  refine ⟨longest_of_first?, fun h => ?_⟩
  obtain ⟨rule', lexeme', rest', hfirst⟩ := exists_first? h.mem h.split
  have hlongest := longest_of_first? hfirst
  by_cases hrule : rule' = rule
  · subst hrule
    have hsame : (lexeme', rest') = (lexeme, rest) :=
      Option.some.inj (hlongest.split.symm.trans h.split)
    rw [hfirst, hsame]
  · have hlt := h.shorter _ hlongest.mem _ _ hrule hlongest.split
    have hgt := hlongest.shorter _ h.mem _ _ (Ne.symm hrule) h.split
    omega

/-! ## No longer match -/

/-- The text as a whole is a match of the rule. -/
def Accepts (rule : Rule) (text : List Char) : Prop := rule.split? text = some (text, [])

theorem run?_extend {p : Char → Bool} (h : run? p l = some (l, [])) (more : List Char) :
    run? p (l ++ more) = some (l ++ more.takeWhile p, more.dropWhile p) := by
  have hall := all_of_run? h
  obtain ⟨c, l, rfl⟩ := List.exists_cons_of_ne_nil (ne_nil_of_run? h)
  rw [run?, List.takeWhile_append_of_pos hall, List.dropWhile_append_of_pos hall]
  rfl

theorem splitSign_extend (hne : cs ≠ []) (more : List Char) :
    splitSign (cs ++ more) = ((splitSign cs).1, (splitSign cs).2 ++ more) := by
  obtain ⟨c, cs, rfl⟩ := List.exists_cons_of_ne_nil hne
  simp only [List.cons_append, splitSign]
  split_ifs
  · rfl
  · rfl

/-- An exponent may get more digits. -/
theorem splitExponent_extend (h : splitExponent cs = (cs, [])) (more : List Char) :
    cs <+: (splitExponent (cs ++ more)).1 := by
  cases cs with
  | nil => exact List.nil_prefix
  | cons c cs =>
    simp only [splitExponent] at h
    split_ifs at h with hc
    · split at h
      · rename_i run rest hrun
        obtain ⟨hcs, rfl⟩ := Prod.mk.inj h
        have hrest : (splitSign cs).2 = run := by simpa using (append_of_run? hrun).symm
        have hne : cs ≠ [] := by
          rintro rfl
          cases hrun
        rw [hrest] at hrun
        simp only [List.cons_append, splitExponent, if_pos hc, splitSign_extend hne, hrest,
          run?_extend hrun]
        rw [← hcs, List.cons_append]
        simp
      · cases h
    · cases h

/-- So may a number with a point. -/
theorem splitDecimal?_extend (h : splitDecimal? l = some (l, [])) (more : List Char) :
    ∃ l' r, splitDecimal? (l ++ more) = some (l', r) ∧ l <+: l' := by
  unfold splitDecimal? at h
  split at h
  · rename_i whole rest hwhole
    split at h
    · rename_i fraction tail hfraction
      obtain ⟨hl, htail⟩ := Prod.mk.inj (Option.some.inj h)
      have hexponent : splitExponent tail = (tail, []) := by
        have happend := append_splitExponent tail
        rw [htail, List.append_nil] at happend
        exact Prod.ext happend htail
      have hpoint : run? Char.isDigit (l ++ more) = some (whole, '.' :: (rest ++ more)) := by
        rw [← append_of_run? hwhole, List.append_assoc]
        exact run?_append (ne_nil_of_run? hwhole) (all_of_run? hwhole) (by simp [Stops])
      rw [hexponent] at hl
      cases tail with
      | nil =>
        -- the digits behind the point may go on
        obtain rfl : rest = fraction := by simpa using (append_of_run? hfraction).symm
        simp only [splitDecimal?, hpoint, run?_extend hfraction]
        refine ⟨_, _, rfl, ?_⟩
        rw [← hl]
        simp
      | cons e tail =>
        have hstops : Stops Char.isDigit (e :: tail ++ more) := by
          simp only [splitExponent] at hexponent
          split_ifs at hexponent with he
          · have he : e = 'e' ∨ e = 'E' := by simpa using he
            rcases he with rfl | rfl
            · simp [Stops]
            · simp [Stops]
          · cases hexponent
        have hbehind : run? Char.isDigit (rest ++ more) = some (fraction, e :: tail ++ more) := by
          rw [← append_of_run? hfraction, List.append_assoc]
          exact run?_append (ne_nil_of_run? hfraction) (all_of_run? hfraction) hstops
        simp only [splitDecimal?, hpoint, hbehind]
        refine ⟨_, _, rfl, ?_⟩
        rw [← hl]
        exact (List.prefix_append_right_inj _).mpr (splitExponent_extend hexponent more)
    · cases h
  · cases h

/-- A quote that closes a text closes it wherever it stands. -/
theorem splitQuoted?_extend (h : splitQuoted? cs = some (l, r)) (more : List Char) :
    splitQuoted? (cs ++ more) = some (l, r ++ more) := by
  fun_induction splitQuoted? cs generalizing l with
  | case1 | case3 | case4 | case5 => cases h
  | case2 rest =>
    obtain ⟨rfl, rfl⟩ := Prod.mk.inj (Option.some.inj h)
    rfl
  | case6 c rest hc ih =>
    obtain ⟨⟨l, t⟩, hl, heq⟩ := Option.map_eq_some_iff.mp h
    obtain ⟨rfl, rfl⟩ := Prod.mk.inj heq
    rw [List.cons_append, List.cons_append, splitQuoted?, ih hl]
    · rfl
    · exact hc
  | case7 c rest hquote hline hend _ hnext ih =>
    obtain ⟨⟨l, t⟩, hl, heq⟩ := Option.map_eq_some_iff.mp h
    obtain ⟨rfl, rfl⟩ := Prod.mk.inj heq
    have hback : c ≠ '\\' := by
      intro hc
      cases rest with
      | nil => exact hend hc rfl
      | cons d rest => exact hnext d rest hc rfl
    rw [List.cons_append, splitQuoted?, ih hl]
    · rfl
    · exact hquote
    · exact hline
    · exact fun hc => absurd hc hback
    · exact fun _ hc => absurd hc hback
    · exact fun _ _ hc => absurd hc hback

/-- **A match is at least as long as whatever the rule accepts** of the start of the text. -/
theorem Accepts.exists_split? (hrule : rule ∈ all) (h : rule.Accepts l) (more : List Char) :
    ∃ l' r, rule.split? (l ++ more) = some (l', r) ∧ l <+: l' := by
  unfold Accepts at h
  cases hrule using mem_cases with
  | word =>
    simp only [split?, Pattern.split?] at h
    split at h
    · rename_i c cs
      split_ifs at h with hc
      exact ⟨_, _,
        by simpa only [List.cons_append, split?, Pattern.split?, hc, if_true]
          using run?_extend h more,
        List.prefix_append _ _⟩
    · cases h
  | decimal => exact splitDecimal?_extend h more
  | integer | blank => exact ⟨_, _, run?_extend h more, List.prefix_append _ _⟩
  | quoted =>
    simp only [split?, Pattern.split?] at h
    split at h
    · rename_i cs
      obtain ⟨⟨l, t⟩, hl, heq⟩ := Option.map_eq_some_iff.mp h
      obtain ⟨hcs, rfl⟩ := Prod.mk.inj heq
      refine ⟨'"' :: cs, more, ?_, List.prefix_refl _⟩
      simp only [List.cons_append, split?, Pattern.split?, splitQuoted?_extend hl, Option.map_some]
      rw [hcs, List.nil_append]
    · cases h
  | comment =>
    simp only [split?, Pattern.split?] at h
    split at h
    · rename_i cs
      obtain ⟨hcs, -⟩ := Prod.mk.inj (Option.some.inj h)
      have hcs : cs.takeWhile (· ≠ '\n') = cs := by simpa using hcs
      have hall : ∀ c ∈ cs, decide (c ≠ '\n') = true := by
        intro c hc
        rw [← hcs] at hc
        simpa using List.mem_takeWhile_imp hc
      refine ⟨'/' :: '/' :: (cs ++ more.takeWhile (· ≠ '\n')), more.dropWhile (· ≠ '\n'), ?_, ?_⟩
      · simp only [List.cons_append, split?, Pattern.split?]
        rw [List.takeWhile_append_of_pos hall, List.dropWhile_append_of_pos hall]
      · simp
    · cases h
  | mark m =>
    have hl : l = m.spelling.toList := eq_of_splitSpelling? h
    subst hl
    exact ⟨_, more, by simp [split?, Pattern.split?, splitSpelling?], List.prefix_refl _⟩

theorem utf8Len_le_of_prefix (h : l <+: lexeme) : utf8Len l ≤ utf8Len lexeme := by
  obtain ⟨t, rfl⟩ := h
  rw [String.utf8Len_append]
  exact Nat.le_add_right _ _

/-- No rule accepts a longer beginning of the text than the longest match. -/
theorem Longest.le_of_accepts (h : Longest cs rule lexeme rest) (hother : other ∈ all)
    (hl : l <+: cs) (haccepts : other.Accepts l) : utf8Len l ≤ utf8Len lexeme := by
  obtain ⟨more, rfl⟩ := hl
  obtain ⟨l', r, hsplit, hextends⟩ := haccepts.exists_split? hother more
  have hle := utf8Len_le_of_prefix hextends
  by_cases hrule : other = rule
  · subst hrule
    obtain ⟨rfl, -⟩ := Prod.mk.inj (Option.some.inj (hsplit.symm.trans h.split))
    exact hle
  · exact hle.trans (Nat.le_of_lt (h.shorter _ hother _ _ hrule hsplit))

/-- The handler moves on by the bytes of the match, at least one. -/
theorem Longest.length_eq (h : Longest cs rule lexeme rest) :
    rule.handler.length lexeme = utf8Len lexeme ∧ 0 < utf8Len lexeme := by
  have hsize : utf8Len lexeme ≠ 0 := fun hzero =>
    ne_nil_of_split? h.mem h.split (String.utf8Len_eq_zero.mp hzero)
  rw [length_of_split? h.mem h.split, String.utf8ByteSize_ofList]
  exact ⟨rfl, Nat.pos_of_ne_zero hsize⟩

theorem nodup_all : all.Nodup := by decide

end Rule

/-! ## Scanning by longest matches -/

namespace Reader

variable {r : Reader} {rule : Rule} {lexeme rest : List Char}

/-- **Moving on by the bytes of a match leads behind it.** -/
theorem advance_of_split? (h : rule.split? r.rest = some (lexeme, rest)) :
    r.advance (utf8Len lexeme) = ⟨rest, r.position.after lexeme⟩ := by
  rw [advance, ← Rule.append_of_split? h, skip_append]

/-- The token that the match of a rule is, if it is one, up to the place that the reader moves on
to. -/
def found (r : Reader) (rule : Rule) (lexeme : List Char) : List Token :=
  (rule.token? lexeme).toList.map fun t =>
    ⟨t.1, t.2, ⟨r.position, (r.advance (utf8Len lexeme)).position⟩⟩

/-- What comes out when the longest match is taken at each place: the tokens up to the end of the
text, or the fault that no rule matches. -/
inductive Munches : Reader → Except Diagnostic (List Token) → Prop
  | done {p : Position} : Munches ⟨[], p⟩ (.ok [.eofAt p])
  | stuck {c : Char} {cs : List Char} {p : Position}
      (h : ∀ rule ∈ Rule.all, rule.split? (c :: cs) = none) :
      Munches ⟨c :: cs, p⟩ (.error ⟨.unrecognised (String.singleton c), p⟩)
  | take {r : Reader} {rule : Rule} {lexeme rest : List Char}
      {result : Except Diagnostic (List Token)} (h : Rule.Longest r.rest rule lexeme rest)
      (hrest : Munches (r.advance (utf8Len lexeme)) result) :
      Munches r (result.map (r.found rule lexeme ++ ·))

theorem tokens_of_stuck {c : Char} {cs : List Char} {p : Position}
    (h : Rule.first? (c :: cs) = none) :
    tokens ⟨c :: cs, p⟩ = .error ⟨.unrecognised (String.singleton c), p⟩ := by
  rw [tokens]
  split
  · rfl
  · simp_all

/-- One step of the scan: the first match, and then the tokens behind it. -/
theorem tokens_of_first? (h : Rule.first? r.rest = some (rule, lexeme, rest)) :
    r.tokens = (r.advance (utf8Len lexeme)).tokens.map (r.found rule lexeme ++ ·) := by
  have hadvance := advance_of_split? (Rule.split?_of_first? h)
  have hmoves := advance_of_first? h r.position
  obtain ⟨cs, p⟩ := r
  rw [found, hadvance]
  cases cs with
  | nil => cases h
  | cons c cs =>
    rw [tokens]
    split
    · simp_all
    · rename_i hfirst
      cases h.symm.trans hfirst
      simp only at hmoves
      simp only [hmoves]
      cases tokens ⟨rest, p.after lexeme⟩ with
      | error d => rfl
      | ok ts =>
        cases rule.token? lexeme with
        | none => rfl
        | some token => rfl

/-- Every text can be scanned by longest matches, and the scan does so. By induction on how much is
left: each match takes something. -/
theorem munches_tokens (r : Reader) : r.Munches r.tokens := by
  obtain ⟨cs, p⟩ := r
  induction hn : cs.length using Nat.strong_induction_on generalizing cs p with
  | _ n ih =>
    cases cs with
    | nil =>
      rw [tokens]
      exact .done
    | cons c cs =>
      cases hfirst : Rule.first? (c :: cs) with
      | none =>
        rw [tokens_of_stuck hfirst]
        exact .stuck (Rule.split?_eq_none_of_first? hfirst)
      | some match? =>
        obtain ⟨rule, lexeme, rest⟩ := match?
        have hadvance := advance_of_split? (r := ⟨c :: cs, p⟩) (Rule.split?_of_first? hfirst)
        have hlt : rest.length < n := by
          have hlength := length_advance_lt (Rule.longest_of_first? hfirst).length_eq.2 c cs p
          rwa [hadvance, hn] at hlength
        rw [tokens_of_first? hfirst]
        refine .take (Rule.longest_of_first? hfirst) ?_
        rw [hadvance]
        exact ih _ hlt rest _ rfl

/-- **Scanning is taking the longest match again and again.** -/
theorem munches_iff {result : Except Diagnostic (List Token)} :
    r.Munches result ↔ r.tokens = result := by
  refine ⟨fun h => ?_, fun h => h ▸ r.munches_tokens⟩
  induction h with
  | done => rw [tokens]
  | stuck h =>
    refine tokens_of_stuck ?_
    rw [Rule.first?, List.findSome?_eq_none_iff]
    exact fun rule hrule => by rw [h rule hrule]; rfl
  | take h _ ih => rw [tokens_of_first? (Rule.first?_eq_some_iff.mpr h), ih]

end Reader

/-- **The first match is the longest.** Where a row of the table matches, the first that does takes
at least one byte and more than every other row; no row accepts a longer beginning of the text; and
its handler moves the reader by exactly the bytes of the match. So every scan ends, and has taken
the longest match at each place. -/
theorem tokenize_longest :
    (∀ cs : List Char, ∀ rule ∈ Rule.all, (rule.split? cs).isSome →
      ∃ before first after lexeme rest, Rule.all = before ++ first :: after ∧
        (∀ earlier ∈ before, earlier.split? cs = none) ∧ first.split? cs = some (lexeme, rest) ∧
        Rule.first? cs = some (first, lexeme, rest) ∧
        (∀ other ∈ before ++ after, ∀ l r, other.split? cs = some (l, r) →
          utf8Len l < utf8Len lexeme) ∧
        (∀ other ∈ Rule.all, ∀ l, l <+: cs → other.Accepts l → utf8Len l ≤ utf8Len lexeme) ∧
        first.handler.length lexeme = utf8Len lexeme ∧ 0 < utf8Len lexeme ∧
        ∀ p : Position, Reader.advance ⟨cs, p⟩ (first.handler.length lexeme) =
          ⟨rest, p.after lexeme⟩) ∧
    ∀ (source file : String) (result : Except Diagnostic (List Token)),
      (Reader.ofText source file).Munches result ↔ tokenize source file = result := by
  refine ⟨fun cs rule hrule h => ?_, fun source file result => Reader.munches_iff⟩
  obtain ⟨⟨lexeme, rest⟩, hsplit⟩ := Option.isSome_iff_exists.mp h
  obtain ⟨first, lexeme, rest, hfirst⟩ := Rule.exists_first? hrule hsplit
  obtain ⟨before, after, hall, hbefore⟩ := Rule.exists_rows_of_first? hfirst
  have hlongest := Rule.longest_of_first? hfirst
  refine ⟨before, first, after, lexeme, rest, hall, hbefore, hlongest.split, hfirst, ?_,
    fun other hother l hl haccepts => hlongest.le_of_accepts hother hl haccepts,
    hlongest.length_eq.1, hlongest.length_eq.2, fun p => Reader.advance_of_first? hfirst p⟩
  -- no row stands in the table twice, so another row is another rule
  intro other hother l r
  have hnodup := Rule.nodup_all
  rw [hall, List.nodup_middle, List.nodup_cons] at hnodup
  have hmem : other ∈ Rule.all := by
    rw [hall, List.mem_append, List.mem_cons]
    exact (List.mem_append.mp hother).imp_right .inr
  exact hlongest.shorter other hmem l r fun heq => hnodup.1 (heq ▸ hother)

/-- A number with a point and an exponent, where an integer matches too, before a mark that starts
with another one. -/
theorem tokenize_longest_decimal :
    (Rule.integer.split? "1.5e3<-".toList).isSome = true ∧
      Rule.first? "1.5e3<-".toList = some (.decimal, "1.5e3".toList, "<-".toList) ∧
      (∃ before after, Rule.all = before ++ .decimal :: after ∧
        ∀ other ∈ before ++ after, ∀ l r, other.split? "1.5e3<-".toList = some (l, r) →
          utf8Len l < utf8Len "1.5e3".toList) ∧
      ∃ ts, tokenize "1.5e3<-" "f" = .ok ts ∧ ts.map Token.pair =
        [(.float, "1.5e3"), (.mark .leftArrow, "<-"), (.eof, "EOF")] ∧
        (Reader.ofText "1.5e3<-" "f").Munches (.ok ts) := by
  have hinteger : (Rule.integer.split? "1.5e3<-".toList).isSome = true := by decide +kernel
  have hfirst : Rule.first? "1.5e3<-".toList = some (.decimal, "1.5e3".toList, "<-".toList) := by
    decide +kernel
  have hread : (tokenize "1.5e3<-" "f").map (List.map Token.pair) =
      .ok [(.float, "1.5e3"), (.mark .leftArrow, "<-"), (.eof, "EOF")] := by decide +kernel
  obtain ⟨before, first, after, lexeme, rest, hall, -, -, hfound, hshorter, -⟩ :=
    tokenize_longest.1 _ _ (by decide) hinteger
  obtain ⟨rfl, heq⟩ := Prod.mk.inj (Option.some.inj (hfirst.symm.trans hfound))
  obtain ⟨rfl, -⟩ := Prod.mk.inj heq
  obtain ⟨ts, hts, hpairs⟩ := exists_of_map_eq_ok hread
  exact ⟨hinteger, hfirst, ⟨before, after, hall, hshorter⟩, ts, hts, hpairs,
    (tokenize_longest.2 _ _ _).mpr hts⟩

end Quill
