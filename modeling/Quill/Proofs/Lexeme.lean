import Quill.Proofs.Terminal
import Quill.Token.Scan

/-!
# Reading back what is written

`Terminal.text` writes a terminal: marks and words as they are spelled, names and numbers as they
are, strings between quotes with a backslash before what would end them. Where the terminals are
well formed and a blank stands between each two, the tokens of the text say what was written.

For each form there is one rule of the scanner that takes the text of the terminal and nothing
behind it, and no rule that is tried earlier takes any of it.

Results:
* `Rule.splitQuoted?_escape`, `Rule.unescape_escape`: strings are found, and read back.
* `Rule.find?_spelling`: no mark is taken for one that it starts with.
* `Terminal.first?_text`: the first rule that matches takes the text of a terminal, up to the blank.
* **`tokenize_written`**: the tokens of what is written.
-/

namespace Quill

open String (utf8Len)

/-! ## Writing terminals -/

/-- A character between quotes: with a backslash if it would end the string or the line. -/
def escapeChar (c : Char) : List Char :=
  if c = '\\' then ['\\', '\\'] else if c = '"' then ['\\', '"'] else if c = '\n' then ['\\', 'n']
  else [c]

/-- The text between the quotes of a string. -/
def escape (cs : List Char) : List Char := cs.flatMap escapeChar

/-- One or more digits. -/
def IsDigits (cs : List Char) : Prop := cs ≠ [] ∧ ∀ c ∈ cs, c.isDigit = true

/-- An `e`, an optional sign and digits. -/
def IsExponent (cs : List Char) : Prop :=
  ∃ e sign digits, cs = e :: sign ++ digits ∧ (e = 'e' ∨ e = 'E') ∧
    (sign = [] ∨ sign = ['+'] ∨ sign = ['-']) ∧ IsDigits digits

namespace Terminal

/-- The characters that a terminal is written with. -/
def text : Terminal → List Char
  | .mark m => m.spelling.toList
  | .word k => k.spelling.toList
  | .name s | .integer s | .float s => s.toList
  | .string s => '"' :: escape s.toList ++ ['"']

/-- Names start with a letter or an underscore, go on with letters, digits and underscores, and are
not reserved; integers are digits; floats are digits on both sides of a point, and an optional
exponent. -/
def WellFormed : Terminal → Prop
  | .mark _ | .word _ | .string _ => True
  | .name s =>
    (∃ c cs, s.toList = c :: cs ∧ Rule.isWordStart c = true ∧ ∀ d ∈ cs, Rule.isWordPart d = true) ∧
      ∀ k : Keyword, k.spelling ≠ s
  | .integer s => IsDigits s.toList
  | .float s =>
    ∃ whole fraction exponent, s.toList = whole ++ '.' :: fraction ++ exponent ∧
      IsDigits whole ∧ IsDigits fraction ∧ (exponent = [] ∨ IsExponent exponent)

/-- Terminals with one blank between each two. -/
def spaced (xs : List Terminal) : List Char := [' '].intercalate (xs.map text)

end Terminal

/-! ## The rules -/

namespace Rule

variable {p : Char → Bool} {cs rest : List Char}

/-- The text ends, or goes on with a blank. -/
def Ends (rest : List Char) : Prop := rest = [] ∨ ∃ r, rest = ' ' :: r

/-- The text ends, or goes on with a character out of the class. -/
def Stops (p : Char → Bool) (rest : List Char) : Prop := ∀ c ∈ rest.head?, p c = false

theorem Ends.stops (h : Ends rest) (hp : p ' ' = false) : Stops p rest := by
  obtain rfl | ⟨r, rfl⟩ := h
  · exact nofun
  · simpa [Stops] using hp

/-- A run is taken whole, and nothing behind it. -/
theorem run?_append (hne : cs ≠ []) (hall : ∀ c ∈ cs, p c = true) (hstops : Stops p rest) :
    run? p (cs ++ rest) = some (cs, rest) := by
  have htake : (cs ++ rest).takeWhile p = cs := by
    rw [List.takeWhile_append_of_pos hall]
    cases rest with
    | nil => simp
    | cons c r => simp [hstops c rfl]
  have hdrop : (cs ++ rest).dropWhile p = rest := by
    rw [List.dropWhile_append_of_pos hall]
    cases rest with
    | nil => rfl
    | cons c r => simp [hstops c rfl]
  obtain ⟨c, cs, rfl⟩ := List.exists_cons_of_ne_nil hne
  rw [run?, htake, hdrop]

theorem run?_eq_none (h : Stops p rest) : run? p rest = none := by
  cases rest with
  | nil => rfl
  | cons c r => simp [run?, h c rfl]

/-- The first rule that matches: those that are tried earlier do not. -/
theorem first?_eq_some {rule : Rule} (before after : List Rule) {lexeme : List Char}
    (hall : all = before ++ rule :: after) (hbefore : ∀ r ∈ before, r.split? cs = none)
    (h : rule.split? cs = some (lexeme, rest)) : first? cs = some (rule, lexeme, rest) := by
  have hnone : before.findSome? (fun r => (r.split? cs).map fun s => (r, s)) = none :=
    List.findSome?_eq_none_iff.mpr fun r hr => by rw [hbefore r hr]; rfl
  rw [first?, hall, List.findSome?_append, hnone, List.findSome?_cons, h]
  rfl

/-! ### Words and numbers -/

theorem split?_word_eq_none {c : Char} (h : isWordStart c = false) :
    Rule.word.split? (c :: cs) = none := by
  simp [split?, Pattern.split?, h]

theorem isWordStart_of_isDigit {c : Char} (h : c.isDigit = true) : isWordStart c = false := by
  have hc : c ≠ '_' := by
    rintro rfl
    cases h
  grind [isWordStart, Char.isAlpha, Char.isUpper, Char.isLower, Char.isDigit]

theorem isWordPart_of_isWordStart {c : Char} (h : isWordStart c = true) : isWordPart c = true := by
  grind [isWordStart, isWordPart, Char.isAlphanum]

theorem split?_word_digits (hcs : IsDigits cs) : Rule.word.split? (cs ++ rest) = none := by
  obtain ⟨c, cs, rfl⟩ := List.exists_cons_of_ne_nil hcs.1
  exact split?_word_eq_none (isWordStart_of_isDigit (hcs.2 c List.mem_cons_self))

theorem first?_word_of_stops {c : Char} (hc : isWordStart c = true)
    (hcs : ∀ d ∈ cs, isWordPart d = true) (hrest : Stops isWordPart rest) :
    first? (c :: cs ++ rest) = some (.word, c :: cs, rest) := by
  have hrun : run? isWordPart (c :: cs ++ rest) = some (c :: cs, rest) :=
    run?_append (List.cons_ne_nil c cs)
      (List.forall_mem_cons.mpr ⟨isWordPart_of_isWordStart hc, hcs⟩) hrest
  refine first?_eq_some [] _ rfl (List.forall_mem_nil _) ?_
  simp only [split?, Pattern.split?, List.cons_append, hc, if_true]
  exact hrun

theorem first?_word {c : Char} (hc : isWordStart c = true) (hcs : ∀ d ∈ cs, isWordPart d = true)
    (hrest : Ends rest) : first? (c :: cs ++ rest) = some (.word, c :: cs, rest) :=
  first?_word_of_stops hc hcs (hrest.stops rfl)

theorem spelling_eq_word (k : Keyword) : ∃ c s, k.spelling.toList = c :: s ∧
    isWordStart c = true ∧ ∀ d ∈ s, isWordPart d = true := by
  cases k <;> exact ⟨_, _, rfl, rfl, List.all_eq_true.mp rfl⟩

theorem ofSpelling?_spelling (k : Keyword) : Keyword.ofSpelling? k.spelling = some k := by
  cases k <;> decide

theorem first?_integer (hcs : IsDigits cs) (hrest : Ends rest) :
    first? (cs ++ rest) = some (.integer, cs, rest) := by
  have hrun : run? Char.isDigit (cs ++ rest) = some (cs, rest) :=
    run?_append hcs.1 hcs.2 (hrest.stops rfl)
  refine first?_eq_some [.word, .decimal] _ rfl ?_ hrun
  refine List.forall_mem_cons.mpr ⟨split?_word_digits hcs, List.forall_mem_singleton.mpr ?_⟩
  rw [split?, Pattern.split?, splitDecimal?, hrun]
  obtain rfl | ⟨r, rfl⟩ := hrest
  · rfl
  · rfl

theorem splitSign_append {sign digits : List Char}
    (hsign : sign = [] ∨ sign = ['+'] ∨ sign = ['-']) (hdigits : IsDigits digits) :
    splitSign (sign ++ digits ++ rest) = (sign, digits ++ rest) := by
  obtain ⟨d, digits, rfl⟩ := List.exists_cons_of_ne_nil hdigits.1
  have hd : d.isDigit = true := hdigits.2 d List.mem_cons_self
  obtain rfl | rfl | rfl := hsign
  · have hplus : d ≠ '+' := by
      rintro rfl
      cases hd
    have hminus : d ≠ '-' := by
      rintro rfl
      cases hd
    simp [splitSign, hplus, hminus]
  · rfl
  · rfl

theorem splitExponent_append (hcs : cs = [] ∨ IsExponent cs) (hrest : Ends rest) :
    splitExponent (cs ++ rest) = (cs, rest) := by
  obtain rfl | ⟨e, sign, digits, rfl, he, hsign, hdigits⟩ := hcs
  · obtain rfl | ⟨r, rfl⟩ := hrest
    · rfl
    · rfl
  · have he : (e = 'e' || e = 'E') = true := by simpa using he
    have hsplit : splitSign (sign ++ digits ++ rest) = (sign, digits ++ rest) :=
      splitSign_append hsign hdigits
    have hrun := run?_append hdigits.1 hdigits.2 (hrest.stops (p := Char.isDigit) rfl)
    simp only [List.cons_append, splitExponent, he, if_true, hsplit, hrun]

/-- What stands behind the digits of a fraction is no digit. -/
theorem stops_exponent (hcs : cs = [] ∨ IsExponent cs) (hrest : Ends rest) :
    Stops Char.isDigit (cs ++ rest) := by
  obtain rfl | ⟨e, sign, digits, rfl, rfl | rfl, -⟩ := hcs
  · exact hrest.stops rfl
  · simp [Stops]
  · simp [Stops]

theorem first?_decimal {whole fraction exponent : List Char} (hwhole : IsDigits whole)
    (hfraction : IsDigits fraction) (hexponent : exponent = [] ∨ IsExponent exponent)
    (hrest : Ends rest) :
    first? (whole ++ '.' :: fraction ++ exponent ++ rest) =
      some (.decimal, whole ++ '.' :: fraction ++ exponent, rest) := by
  have hpoint : run? Char.isDigit (whole ++ '.' :: (fraction ++ (exponent ++ rest))) =
      some (whole, '.' :: (fraction ++ (exponent ++ rest))) :=
    run?_append hwhole.1 hwhole.2 (by simp [Stops])
  have hbehind := run?_append hfraction.1 hfraction.2 (stops_exponent hexponent hrest)
  have hassoc : whole ++ '.' :: fraction ++ exponent ++ rest =
      whole ++ '.' :: (fraction ++ (exponent ++ rest)) := by simp
  refine first?_eq_some [.word] _ rfl (List.forall_mem_singleton.mpr ?_) ?_
  · rw [hassoc]
    exact split?_word_digits hwhole
  · simp only [split?, Pattern.split?, splitDecimal?, hassoc, hpoint, hbehind,
      splitExponent_append hexponent hrest]

/-! ### Strings -/

/-- The quote that closes a string is found behind the text between the quotes. -/
theorem splitQuoted?_escape (cs rest : List Char) :
    splitQuoted? (escape cs ++ '"' :: rest) = some (escape cs ++ ['"'], rest) := by
  induction cs with
  | nil => rfl
  | cons c cs ih =>
    rw [escape, List.flatMap_cons, ← escape, escapeChar]
    split_ifs with hback hquote hline
    · simp [splitQuoted?, ih]
    · simp [splitQuoted?, ih]
    · simp [splitQuoted?, ih]
    · simp [splitQuoted?, ih, hback]

/-- The text between the quotes denotes what was written. -/
theorem unescape_escape (cs : List Char) : unescape (escape cs) = cs := by
  induction cs with
  | nil => rfl
  | cons c cs ih =>
    rw [escape, List.flatMap_cons, ← escape, escapeChar]
    split_ifs with hback hquote hline
    · simp [unescape, ih, hback]
    · simp [unescape, ih, hquote]
    · simp [unescape, ih, hline]
    · simp [unescape, ih, hback]

theorem first?_quoted (cs rest : List Char) :
    first? ('"' :: escape cs ++ ['"'] ++ rest) =
      some (.quoted, '"' :: escape cs ++ ['"'], rest) := by
  refine first?_eq_some [.word, .decimal, .integer, .blank] _ rfl ?_ ?_
  · intro r hr
    simp only [List.mem_cons, List.not_mem_nil, or_false] at hr
    obtain rfl | rfl | rfl | rfl := hr <;> rfl
  · have hassoc : escape cs ++ ['"'] ++ rest = escape cs ++ '"' :: rest := by simp
    rw [List.cons_append, List.cons_append, split?, Pattern.split?, hassoc, splitQuoted?_escape]
    rfl

/-! ### Blanks -/

/-- No character from `0` to `z` is a blank. -/
theorem isBlank_eq_false {c : Char} (hlow : 48 ≤ c.toNat) (hhigh : c.toNat ≤ 122) :
    Text.isBlank c = false := by
  simp only [Text.isBlank, Text.inRanges, Text.blankRanges, List.any_eq_false, List.mem_cons,
    List.not_mem_nil, or_false, Bool.and_eq_true, decide_eq_true_eq]
  rintro ⟨low, high⟩ hmem
  simp only [Prod.mk.injEq] at hmem
  omega

theorem isBlank_of_isWordPart {c : Char} (h : isWordPart c = true) : Text.isBlank c = false := by
  by_cases hc : c = '_'
  · subst hc
    rfl
  · have hrange : 48 ≤ c.val ∧ c.val ≤ 122 := by
      grind [isWordPart, Char.isAlphanum, Char.isAlpha, Char.isUpper, Char.isLower, Char.isDigit]
    exact isBlank_eq_false hrange.1 hrange.2

/-- White space is matched by no rule but its own. -/
theorem first?_of_isBlank {c : Char} (hc : Text.isBlank c = true) (cs : List Char) :
    first? (c :: cs) =
      some (.blank, c :: cs.takeWhile Text.isBlank, cs.dropWhile Text.isBlank) := by
  have hpart : isWordPart c = false := by
    by_contra hpart
    rw [isBlank_of_isWordPart (by simpa using hpart)] at hc
    cases hc
  have hstart : isWordStart c = false := by
    by_contra hstart
    rw [isWordPart_of_isWordStart (by simpa using hstart)] at hpart
    cases hpart
  have hdigit : c.isDigit = false := by
    by_contra hdigit
    simp [isWordPart, Char.isAlphanum, hdigit] at hpart
  have hdigits : run? Char.isDigit (c :: cs) = none := run?_eq_none (by simp [Stops, hdigit])
  refine first?_eq_some [.word, .decimal, .integer] _ rfl ?_ ?_
  · intro r hr
    simp only [List.mem_cons, List.not_mem_nil, or_false] at hr
    obtain rfl | rfl | rfl := hr
    · exact split?_word_eq_none hstart
    · simp only [split?, Pattern.split?, splitDecimal?, hdigits]
    · exact hdigits
  · simp [split?, Pattern.split?, run?, hc]

theorem first?_blank (h : Stops Text.isBlank rest) :
    first? (' ' :: rest) = some (.blank, [' '], rest) := by
  rw [first?_of_isBlank rfl]
  cases rest with
  | nil => rfl
  | cons c rest => simp [h c rfl]

/-! ### Marks -/

/-- No mark is taken for one that it starts with. -/
theorem find?_spelling (m : Mark) :
    marks.find? (fun k => k.spelling.toList.isPrefixOf m.spelling.toList) = some m := by
  cases m <;> decide

theorem space_notMem_spelling (m : Mark) : ' ' ∉ m.spelling.toList := by
  cases m <;> decide

/-- What has no blank begins a text up to a blank if it begins the text. -/
theorem isPrefixOf_append (hrest : Ends rest) : ∀ {s : List Char} (t : List Char), ' ' ∉ s →
    s.isPrefixOf (t ++ rest) = s.isPrefixOf t
  | [], _, _ => by simp
  | c :: s, [], hs => by
    obtain rfl | ⟨r, rfl⟩ := hrest
    · rfl
    · have hc : c ≠ ' ' := fun h => hs (by simp [h])
      simp [List.isPrefixOf, hc]
  | c :: s, d :: t, hs => by
    have hs : ' ' ∉ s := fun h => hs (List.mem_cons_of_mem _ h)
    simp [List.isPrefixOf, isPrefixOf_append hrest t hs]

/-- What a mark starts with: no word, no number, no blank and no quote does, and no comment. -/
theorem spelling_eq_cons (m : Mark) : ∃ c s, m.spelling.toList = c :: s ∧ isWordStart c = false ∧
    c.isDigit = false ∧ Text.isBlank c = false ∧ c ≠ '"' ∧ (c = '/' → s = []) := by
  cases m <;> exact ⟨_, _, rfl, by decide⟩

/-- The rules that are tried before those of the marks do not match a mark. -/
theorem split?_spelling (m : Mark) (hrest : Ends rest) :
    ∀ r ∈ forms, r.split? (m.spelling.toList ++ rest) = none := by
  obtain ⟨c, s, hs, hword, hdigit, hblank, hquote, hslash⟩ := spelling_eq_cons m
  have hdigits : run? Char.isDigit (c :: (s ++ rest)) = none :=
    run?_eq_none (by simp [Stops, hdigit])
  intro r hr
  rw [hs, List.cons_append]
  simp only [forms, List.mem_cons, List.not_mem_nil, or_false] at hr
  obtain rfl | rfl | rfl | rfl | rfl | rfl := hr
  · exact split?_word_eq_none hword
  · simp only [split?, Pattern.split?, splitDecimal?, hdigits]
  · exact hdigits
  · exact run?_eq_none (by simp [Stops, hblank])
  · simp [split?, Pattern.split?, hquote]
  · -- a slash alone is no comment, since a blank or nothing follows it
    by_cases hc : c = '/'
    · obtain rfl := hslash hc
      obtain rfl | ⟨r, rfl⟩ := hrest
      · simp [split?, Pattern.split?]
      · simp [split?, Pattern.split?]
    · simp [split?, Pattern.split?, hc]

theorem first?_mark (m : Mark) (hrest : Ends rest) :
    first? (m.spelling.toList ++ rest) = some (.mark m, m.spelling.toList, rest) := by
  obtain ⟨-, before, after, hmarks, hbefore⟩ := List.find?_eq_some_iff_append.mp (find?_spelling m)
  refine first?_eq_some (forms ++ before.map .mark) (after.map .mark) ?_ ?_ ?_
  · rw [all_eq, hmarks]
    simp
  · intro r hr
    rcases List.mem_append.mp hr with hr | hr
    · exact split?_spelling m hrest r hr
    · obtain ⟨k, hk, rfl⟩ := List.mem_map.mp hr
      have hnot := hbefore k hk
      rw [Bool.not_eq_true'] at hnot
      simp [split?, Pattern.split?, splitSpelling?,
        isPrefixOf_append hrest _ (space_notMem_spelling k), hnot]
  · simp [split?, Pattern.split?, splitSpelling?]

end Rule

/-! ## Terminals -/

namespace Terminal

open Rule

variable {x : Terminal} {rest : List Char}

/-- **The first rule that matches takes the text of a terminal**, and makes of it a token that says
what the terminal does. -/
theorem first?_text (hx : x.WellFormed) (hrest : Ends rest) :
    ∃ rule, first? (x.text ++ rest) = some (rule, x.text, rest) ∧
      rule.token? x.text = some (x.kind, x.value) := by
  cases x with
  | mark m =>
    exact ⟨.mark m, first?_mark m hrest, by simp [Rule.token?, Handler.token?, kind, value]⟩
  | word k =>
    obtain ⟨c, s, hs, hc, hcs⟩ := spelling_eq_word k
    refine ⟨.word, ?_,
      by simp [Rule.token?, Handler.token?, text, kind, value, ofSpelling?_spelling]⟩
    rw [text, hs]
    exact first?_word hc hcs hrest
  | name s =>
    obtain ⟨⟨c, cs, hs, hc, hcs⟩, hfree⟩ := hx
    refine ⟨.word, ?_, ?_⟩
    · rw [text, hs]
      exact first?_word hc hcs hrest
    · have hnone : Keyword.ofSpelling? s = none := by
        rw [Keyword.ofSpelling?, List.find?_eq_none]
        simpa using fun k _ => hfree k
      simp [Rule.token?, Handler.token?, text, kind, value, hnone]
  | integer s =>
    exact ⟨.integer, first?_integer hx hrest,
      by simp [Rule.token?, Handler.token?, text, kind, value]⟩
  | float s =>
    obtain ⟨whole, fraction, exponent, hs, hwhole, hfraction, hexponent⟩ := hx
    refine ⟨.decimal, ?_, by simp [Rule.token?, Handler.token?, text, kind, value]⟩
    rw [text, hs]
    exact first?_decimal hwhole hfraction hexponent hrest
  | string s =>
    refine ⟨.quoted, first?_quoted s.toList rest, ?_⟩
    simp [Rule.token?, Handler.token?, text, kind, value, unescape_escape]

/-- A terminal starts with no blank. -/
theorem stops_text (hx : x.WellFormed) : Stops Text.isBlank (x.text ++ rest) := by
  have hword : ∀ {c : Char} {cs : List Char}, isWordPart c = true →
      Stops Text.isBlank (c :: cs) := fun hc => by simp [Stops, isBlank_of_isWordPart hc]
  have hdigits : ∀ {cs cs' : List Char}, IsDigits cs → Stops Text.isBlank (cs ++ cs') := by
    intro cs cs' hcs
    obtain ⟨c, cs, rfl⟩ := List.exists_cons_of_ne_nil hcs.1
    have hc : c.isDigit = true := hcs.2 c List.mem_cons_self
    exact hword (by simp [isWordPart, Char.isAlphanum, hc])
  cases x with
  | mark m =>
    obtain ⟨c, s, hs, -, -, hblank, -⟩ := spelling_eq_cons m
    simp [Stops, text, hs, hblank]
  | word k =>
    obtain ⟨c, s, hs, hc, -⟩ := spelling_eq_word k
    rw [text, hs]
    exact hword (isWordPart_of_isWordStart hc)
  | name s =>
    obtain ⟨⟨c, cs, hs, hc, -⟩, -⟩ := hx
    rw [text, hs]
    exact hword (isWordPart_of_isWordStart hc)
  | integer s => exact hdigits hx
  | float s =>
    obtain ⟨whole, fraction, exponent, hs, hwhole, -⟩ := hx
    rw [text, hs, List.append_assoc, List.append_assoc]
    exact hdigits hwhole
  | string s => simp [Stops, text, show Text.isBlank '"' = false from rfl]

theorem spaced_singleton (x : Terminal) : spaced [x] = x.text ++ [] := by
  simp [spaced, List.intercalate]

theorem spaced_cons (x y : Terminal) (xs : List Terminal) :
    spaced (x :: y :: xs) = x.text ++ ' ' :: spaced (y :: xs) := by
  simp [spaced, List.intercalate]

/-- So do terminals. -/
theorem stops_spaced {xs : List Terminal} (hxs : ∀ x ∈ xs, x.WellFormed) :
    Stops Text.isBlank (spaced xs) := by
  match xs with
  | [] => exact nofun
  | [x] =>
    rw [spaced_singleton]
    exact stops_text (hxs x List.mem_cons_self)
  | x :: y :: xs =>
    rw [spaced_cons]
    exact stops_text (hxs x List.mem_cons_self)

end Terminal

/-! ## Texts -/

namespace Reader

variable {cs lexeme rest : List Char} {p : Position} {rule : Rule} {ts : List Token}

theorem skip_append (p : Position) (lexeme rest : List Char) :
    skip (utf8Len lexeme) p (lexeme ++ rest) = ⟨rest, p.after lexeme⟩ := by
  induction lexeme generalizing p with
  | nil =>
    cases rest with
    | nil => rfl
    | cons c rest => simp [skip]
  | cons c lexeme ih =>
    have hpos := c.utf8Size_pos
    have hne : utf8Len (c :: lexeme) ≠ 0 := by
      rw [String.utf8Len_cons]
      omega
    have hsub : utf8Len (c :: lexeme) - c.utf8Size = utf8Len lexeme := by
      rw [String.utf8Len_cons]
      omega
    rw [List.cons_append, skip, if_neg hne, hsub, ih, Position.after_cons]

/-- **The handler of the first match moves the reader behind it**, and no further. -/
theorem advance_of_first? (h : Rule.first? cs = some (rule, lexeme, rest)) (p : Position) :
    advance ⟨cs, p⟩ (rule.handler.length lexeme) = ⟨rest, p.after lexeme⟩ := by
  have hsplit := Rule.split?_of_first? h
  have hlength : rule.handler.length lexeme = utf8Len lexeme := by
    rw [Rule.length_of_split? (Rule.mem_of_first? h) hsplit, String.utf8ByteSize_ofList]
  rw [hlength, advance, ← Rule.append_of_split? hsplit, skip_append]

/-- A match that is a token comes before the tokens of the rest. -/
theorem tokens_of_token? {kind : TokenKind} {value : String}
    (h : Rule.first? cs = some (rule, lexeme, rest))
    (hrule : rule.token? lexeme = some (kind, value))
    (hrest : tokens ⟨rest, p.after lexeme⟩ = .ok ts) :
    tokens ⟨cs, p⟩ = .ok (⟨kind, value, ⟨p, p.after lexeme⟩⟩ :: ts) := by
  cases cs with
  | nil => cases h
  | cons c cs =>
    rw [tokens]
    split
    · simp_all
    · simp_all [advance_of_first? h]

/-- A match that is none is passed over. -/
theorem tokens_of_skip (h : Rule.first? cs = some (rule, lexeme, rest))
    (hrule : rule.token? lexeme = none) : tokens ⟨cs, p⟩ = tokens ⟨rest, p.after lexeme⟩ := by
  cases cs with
  | nil => cases h
  | cons c cs =>
    rw [tokens]
    split
    · simp_all
    · rename_i hsome
      cases h.symm.trans hsome
      simp only [advance_of_first? h, hrule]
      cases tokens ⟨rest, p.after lexeme⟩ <;> rfl

/-- White space before a text does not change its tokens. -/
theorem tokens_blank {c : Char} (hc : Text.isBlank c = true) (cs : List Char) (p : Position) :
    tokens ⟨c :: cs, p⟩ = tokens ⟨cs, p.next c⟩ := by
  rw [tokens_of_skip (Rule.first?_of_isBlank hc cs) rfl]
  cases cs with
  | nil => rfl
  | cons d cs =>
    by_cases hd : Text.isBlank d = true
    · rw [tokens_of_skip (Rule.first?_of_isBlank hd cs) rfl, List.takeWhile_cons_of_pos hd,
        List.dropWhile_cons_of_pos hd]
      rfl
    · rw [List.takeWhile_cons_of_neg hd, List.dropWhile_cons_of_neg hd]
      rfl

theorem tokens_blanks {gap : List Char} (hgap : ∀ c ∈ gap, Text.isBlank c = true) (cs : List Char)
    (p : Position) : tokens ⟨gap ++ cs, p⟩ = tokens ⟨cs, p.after gap⟩ := by
  induction gap generalizing p with
  | nil => rfl
  | cons c gap ih =>
    obtain ⟨hc, hgap⟩ := List.forall_mem_cons.mp hgap
    rw [List.cons_append, tokens_blank hc, ih hgap, Position.after_cons]

end Reader

/-- What a token says, as its kind and its value. -/
def Token.pair (t : Token) : TokenKind × String := (t.kind, t.value)

/-- The tokens of written terminals, wherever the text starts. -/
theorem Reader.tokens_spaced : ∀ {xs : List Terminal}, (∀ x ∈ xs, x.WellFormed) →
    ∀ p : Position, ∃ ts, Reader.tokens ⟨Terminal.spaced xs, p⟩ = .ok ts ∧
      ts.map Token.pair = xs.map (fun x => (x.kind, x.value)) ++ [(.eof, "EOF")]
  | [], _, p => ⟨[.eofAt p], by rw [show Terminal.spaced [] = [] from rfl, tokens], rfl⟩
  | [x], hxs, p => by
    have hx : x.WellFormed := hxs x List.mem_cons_self
    obtain ⟨rule, hfirst, htoken⟩ := Terminal.first?_text hx (.inl rfl : Rule.Ends [])
    obtain ⟨ts, hts, hsays⟩ :=
      tokens_spaced (List.forall_mem_nil Terminal.WellFormed) (p.after x.text)
    rw [Terminal.spaced_singleton]
    refine ⟨_, tokens_of_token? hfirst htoken hts, ?_⟩
    rw [List.map_cons, hsays]
    rfl
  | x :: y :: xs, hxs, p => by
    obtain ⟨hx, hxs⟩ := List.forall_mem_cons.mp hxs
    obtain ⟨rule, hfirst, htoken⟩ := Terminal.first?_text hx (.inr ⟨Terminal.spaced (y :: xs), rfl⟩)
    obtain ⟨ts, hts, hsays⟩ := tokens_spaced hxs ((p.after x.text).after [' '])
    have hrest := (tokens_of_skip (Rule.first?_blank (Terminal.stops_spaced hxs)) rfl).trans hts
    rw [Terminal.spaced_cons]
    refine ⟨_, tokens_of_token? hfirst htoken hrest, ?_⟩
    rw [List.map_cons, hsays]
    rfl

/-- **Reading undoes writing.** The tokens of well-formed terminals, written with one blank between
each two, say what was written, and one token more closes them. -/
theorem tokenize_written {xs : List Terminal} (hxs : ∀ x ∈ xs, x.WellFormed) (file : String) :
    ∃ ts, tokenize (String.ofList (Terminal.spaced xs)) file = .ok ts ∧
      ts.map Token.pair = xs.map (fun x => (x.kind, x.value)) ++ [(.eof, "EOF")] := by
  have htext : Reader.ofText (String.ofList (Terminal.spaced xs)) file =
      ⟨Terminal.spaced xs, .start file⟩ := by simp [Reader.ofText]
  rw [tokenize, htext]
  exact Reader.tokens_spaced hxs _

/-- Two slashes with a blank between them are no comment, and a float is not an integer, a point and
an integer. -/
def sampleTerminals : List Terminal :=
  [.name "if_1", .mark .slash, .mark .slash, .float "0.5E+03", .integer "007", .mark .dot,
   .mark .ellipsis, .word .ifWord, .string "\"\\n\n"]

theorem tokenize_written_sample :
    (∀ x ∈ sampleTerminals, x.WellFormed) ∧
      ∃ ts, tokenize (String.ofList (Terminal.spaced sampleTerminals)) "shell" = .ok ts ∧
        ts.map Token.pair =
          [(.identifier, "if_1"), (.mark .slash, "/"), (.mark .slash, "/"), (.float, "0.5E+03"),
           (.integer, "007"), (.mark .dot, "."), (.mark .ellipsis, "..."), (.word .ifWord, "if"),
           (.string, "\"\\n\n"), (.eof, "EOF")] := by
  have hdigits : ∀ {cs : List Char}, cs ≠ [] → cs.all Char.isDigit = true → IsDigits cs :=
    fun hne hall => ⟨hne, List.all_eq_true.mp hall⟩
  have hname : (Terminal.name "if_1").WellFormed := by
    refine ⟨⟨'i', ['f', '_', '1'], rfl, rfl, List.all_eq_true.mp rfl⟩, fun k => ?_⟩
    cases k <;> decide
  have hfloat : (Terminal.float "0.5E+03").WellFormed := by
    refine ⟨['0'], ['5'], ['E', '+', '0', '3'], rfl, hdigits nofun rfl, hdigits nofun rfl, .inr ?_⟩
    exact ⟨'E', ['+'], ['0', '3'], rfl, .inr rfl, .inr (.inl rfl), hdigits nofun rfl⟩
  have hwell : ∀ x ∈ sampleTerminals, x.WellFormed := by
    simp only [sampleTerminals, List.forall_mem_cons]
    exact ⟨hname, trivial, trivial, hfloat, hdigits nofun rfl, trivial, trivial, trivial, trivial,
      List.forall_mem_nil _⟩
  exact ⟨hwell, tokenize_written hwell "shell"⟩

end Quill
