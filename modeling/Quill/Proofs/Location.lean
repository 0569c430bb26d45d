import Quill.Proofs.Tiling
import Quill.Proofs.Verdict

/-!
# Places are true to the text

`Position.behind` counts a place from the characters before it: the bytes, the newlines, and the
characters since the last newline, each modulo `2 ^ 32`. A place `StandsIn` a text if it is behind
some beginning of it, and `StandsBefore` what follows if that is no white space.

The scan counts places as it goes, and comes to the same (`Position.after_start`). A token starts at
a place that stands before a character of the text and ends at one that stands in it; so does each
half of a `>>`. What comes after the scan only copies places. This is said by a correspondence of
the text with itself: whatever is alike to itself under it has such places, and so everything that
parsing and checking make of tokens has.

A place is `TrueTo` a text, and `PointsInto` it, if its counts are the numbers themselves. No count
of a text is larger than its bytes and one more, so a text that is shorter than `2 ^ 32 - 1` bytes
is enough for that.

Results:
* `Position.after_start`: the places that are counted up are those behind the characters read.
* `Scans.alike_self`: the tokens of a text are alike to themselves.
* `Position.counts_behind`: counts do not wrap around in a text that is short enough.
* **`positions_trueTo`**: the places of tokens are true, and those of faults point into the text.
* `not_positions_trueTo`: in a text of one byte more a column wraps around.
-/

namespace Quill

open String (utf8Len)

/-! ## Counting places -/

namespace Position

/-- The place behind the beginning `before` of a text. -/
def behind (file : String) (before : List Char) : Position where
  offset := .ofNat (utf8Len before)
  line := .ofNat (1 + before.count '\n')
  column := .ofNat (1 + (before.reverse.takeWhile (· ≠ '\n')).length)
  file := file

/-- The place stands in the text, before or behind a character of it. -/
def StandsIn (text : List Char) (file : String) (p : Position) : Prop :=
  ∃ before after, text = before ++ after ∧ p = behind file before

/-- The place stands in the text, and the text ends there or goes on with something that is not
white space. -/
def StandsBefore (text : List Char) (file : String) (p : Position) : Prop :=
  ∃ before after, text = before ++ after ∧ p = behind file before ∧ Rule.Stops Text.isBlank after

variable {text : List Char} {file : String} {p : Position}

theorem StandsBefore.standsIn (h : p.StandsBefore text file) : p.StandsIn text file := by
  obtain ⟨before, after, htext, hp, -⟩ := h
  exact ⟨before, after, htext, hp⟩

theorem behind_append (file : String) (before : List Char) (c : Char) :
    behind file (before ++ [c]) = (behind file before).next c := by
  have hsize : utf8Len (before ++ [c]) = utf8Len before + c.utf8Size := by simp
  unfold behind next
  by_cases hc : c = '\n'
  · -- the line that was begun is left, and the new one is empty
    subst hc
    simp [hsize, UInt32.ofNat_add, UInt32.add_assoc]
  · simp [hsize, hc, UInt32.ofNat_add, UInt32.add_comm]

/-- **Counting place by place is counting the characters.** -/
theorem after_start (file : String) (before : List Char) :
    (start file).after before = behind file before := by
  induction before using List.reverseRecOn with
  | nil => rfl
  | append_singleton before c ih => rw [after_append, ih, behind_append, after_cons, after_nil]

end Position

/-! ## Tokens -/

namespace Rule

variable {rule : Rule} {cs lexeme rest : List Char} {kind : TokenKind} {value : String}

theorem stops_of_run? {p q : Char → Bool} (h : run? p cs = some (lexeme, rest))
    (hpq : ∀ c, p c = true → q c = false) : Stops q cs := by
  obtain ⟨c, lexeme, rfl⟩ := List.exists_cons_of_ne_nil (ne_nil_of_run? h)
  have hc : p c = true := all_of_run? h c List.mem_cons_self
  rw [← append_of_run? h]
  simpa [Stops] using hpq c hc

/-- A token does not start with white space. -/
theorem stops_of_token? (hrule : rule ∈ all) (hsplit : rule.split? cs = some (lexeme, rest))
    (htoken : rule.token? lexeme = some (kind, value)) : Stops Text.isBlank cs := by
  have hdigit : ∀ c : Char, c.isDigit = true → Text.isBlank c = false := by
    intro c hc
    exact isBlank_of_isWordPart (by simp [isWordPart, Char.isAlphanum, hc])
  cases hrule using mem_cases with
  | word =>
    simp only [split?, Pattern.split?] at hsplit
    split at hsplit
    · split_ifs at hsplit
      exact stops_of_run? hsplit fun _ => isBlank_of_isWordPart
    · cases hsplit
  | decimal =>
    simp only [split?, Pattern.split?, splitDecimal?] at hsplit
    split at hsplit
    · rename_i hrun
      exact stops_of_run? hrun hdigit
    · cases hsplit
  | integer => exact stops_of_run? hsplit hdigit
  | quoted =>
    simp only [split?, Pattern.split?] at hsplit
    split at hsplit
    · simp [Stops, show Text.isBlank '"' = false from rfl]
    · cases hsplit
  | mark m =>
    obtain ⟨c, s, hs, -, -, hblank, -⟩ := spelling_eq_cons m
    rw [← append_of_split? hsplit, eq_of_splitSpelling? hsplit, hs]
    simpa [Stops] using hblank
  | blank | comment => cases htoken

end Rule

section

open Position

variable {source file : String} {ts : List Token} {r : Reader}

/-- Where a token starts the text goes on with its first character, and where it ends it is behind
its last one. -/
theorem Scans.places (h : Scans (.ofText source file) ts r) {t : Token} (ht : t ∈ ts) :
    t.span.start.StandsBefore source.toList file ∧ t.span.stop.StandsIn source.toList file := by
  obtain ⟨before, rule, lexeme, after, hrest, hstart, hstop, hfirst, htoken⟩ := h.found t ht
  have htext : source.toList = before ++ (lexeme ++ after) := hrest
  constructor
  · refine ⟨before, lexeme ++ after, htext, hstart.trans (after_start file before), ?_⟩
    exact Rule.stops_of_token? (Rule.mem_of_first? hfirst) (Rule.split?_of_first? hfirst) htoken
  · refine ⟨before ++ lexeme, after, by rw [htext, List.append_assoc], ?_⟩
    rw [hstop, ← after_append]
    exact after_start file _

/-- The middle of a `>>` is before its second character. -/
theorem Scans.middle (h : Scans (.ofText source file) ts r) {t : Token} (ht : t ∈ ts)
    (hkind : t.kind = .mark .shiftRight) : t.span.start.succ.StandsBefore source.toList file := by
  obtain ⟨before, rule, lexeme, after, hrest, hstart, -, hfirst, htoken⟩ := h.found t ht
  rw [hkind] at htoken
  obtain rfl : lexeme = ['>', '>'] :=
    Rule.eq_spelling_of_token? (Rule.mem_of_first? hfirst) (Rule.split?_of_first? hfirst) htoken
  refine ⟨before ++ ['>'], '>' :: after, ?_, ?_, ?_⟩
  · rw [List.append_assoc]
    exact hrest
  · rw [hstart, behind_append]
    exact congrArg succ (after_start file before)
  · simp [Rule.Stops, show Text.isBlank '>' = false from rfl]

/-- The place that a scan has come to is true. -/
theorem Scans.position_eq (h : Scans (.ofText source file) ts r) :
    ∃ before, source.toList = before ++ r.rest ∧ r.position = behind file before := by
  obtain ⟨read, hrest, hposition⟩ := h.exists_append
  exact ⟨read, hrest, hposition.trans (after_start file read)⟩

/-- Where no rule matches, the text does not go on with white space. -/
theorem Rule.stops_of_first?_none {cs : List Char} (h : Rule.first? cs = none) :
    Rule.Stops Text.isBlank cs := by
  have hnone : Rule.run? Text.isBlank cs = none :=
    Rule.split?_eq_none_of_first? h .blank (by decide)
  intro c hc
  obtain ⟨rest, rfl⟩ := List.head?_eq_some_iff.mp hc
  by_contra hblank
  rw [Bool.not_eq_false] at hblank
  simp [Rule.run?, hblank] at hnone

end

/-! ## Everything that has places -/

/-- The correspondence of a text with itself: a place corresponds to itself if it is true to the
text, and as a start if it points into it. -/
def Correspondence.ofText (text : List Char) (file : String) : Correspondence where
  starts p q := p = q ∧ p.StandsBefore text file
  ends p q := p = q ∧ p.StandsIn text file

/-- The tokens of a text are alike to themselves. -/
theorem Scans.alike_self {source file : String} {ts : List Token} {r : Reader}
    (h : Scans (.ofText source file) ts r) :
    List.Forall₂ (Token.Alike (.ofText source.toList file)) ts ts := by
  refine List.forall₂_same.mpr fun t ht => ⟨rfl, rfl, ?_, fun hkind => ?_⟩
  · exact ⟨⟨rfl, (h.places ht).1⟩, rfl, (h.places ht).2⟩
  · have hmiddle := h.middle ht hkind
    exact ⟨⟨rfl, hmiddle⟩, rfl, hmiddle.standsIn⟩

section

variable {source file : String} {d : Diagnostic}

theorem standsBefore_of_tokenize (h : tokenize source file = .error d) :
    d.position.StandsBefore source.toList file := by
  obtain ⟨ts, c, cs, p, hscans, hnone, rfl⟩ := Reader.scans_of_error h
  obtain ⟨before, htext, hp⟩ := hscans.position_eq
  exact ⟨before, c :: cs, htext, hp, Rule.stops_of_first?_none hnone⟩

/-- What parsing makes of a text is alike to itself. -/
theorem verdicts_parseSource (source file : String) :
    Verdicts (.ofText source.toList file)
      (fun a b => List.Forall₂ (Syntax.Stmt.Alike (.ofText source.toList file)) a.body b.body)
      (parseSource source file) (parseSource source file) := by
  unfold parseSource
  cases htokens : tokenize source file with
  | error d => exact .error ⟨rfl, rfl, standsBefore_of_tokenize htokens⟩
  | ok tokens =>
    obtain ⟨ts, p, hscans, rfl⟩ := Reader.scans_of_ok htokens
    obtain ⟨before, htext, hp⟩ := hscans.position_eq
    have hend : p.StandsBefore source.toList file := ⟨before, [], htext, hp, by simp [Rule.Stops]⟩
    have hstart : (Position.start file).StandsIn source.toList file := ⟨[], source.toList, rfl, rfl⟩
    refine parse_alike ⟨rfl, hstart⟩ hscans.alike_self rfl ⟨rfl, rfl, ?_, ?_⟩
    · exact ⟨⟨rfl, hend⟩, rfl, hend.standsIn⟩
    · intro hkind
      cases hkind

theorem standsIn_of_tokenize {tokens : List Token} (h : tokenize source file = .ok tokens) :
    ∀ t ∈ tokens, t.span.start.StandsIn source.toList file ∧
      t.span.stop.StandsIn source.toList file := by
  obtain ⟨ts, p, hscans, rfl⟩ := Reader.scans_of_ok h
  intro t ht
  rcases List.mem_append.mp ht with ht | ht
  · exact ⟨(hscans.places ht).1.standsIn, (hscans.places ht).2⟩
  · obtain rfl := List.mem_singleton.mp ht
    obtain ⟨before, htext, hp⟩ := hscans.position_eq
    exact ⟨⟨before, [], htext, hp⟩, before, [], htext, hp⟩

theorem standsBefore_of_verdicts {α : Type} {Q : α → α → Prop} {x : Except Diagnostic α}
    (h : Verdicts (.ofText source.toList file) Q x x) (hx : x = .error d) :
    d.position.StandsBefore source.toList file := by
  subst hx
  cases h with
  | error hd => exact hd.position.2

theorem standsBefore_of_checkSource {lib : Library} (h : checkSource lib source file = .error d) :
    d.position.StandsBefore source.toList file := by
  have hcheck : Verdicts (.ofText source.toList file) (· = ·) (checkSource lib source file)
      (checkSource lib source file) :=
    (verdicts_parseSource source file).bind fun a b hab => Check.agree_program lib hab
  exact standsBefore_of_verdicts hcheck h

end

/-! ## Places as numbers -/

namespace Position

/-- The place is behind `before`, and its counts are the numbers themselves. -/
structure Counts (p : Position) (file : String) (before : List Char) : Prop where
  file : p.file = file
  offset : p.offset.toNat = utf8Len before
  line : p.line.toNat = 1 + before.count '\n'
  column : p.column.toNat = 1 + (before.reverse.takeWhile (· ≠ '\n')).length

/-- The place stands in the text, before or behind a character of it, and is counted rightly. -/
def TrueTo (text : List Char) (file : String) (p : Position) : Prop :=
  ∃ before after, text = before ++ after ∧ p.Counts file before

/-- The place stands in the text and is counted rightly; the text ends there, or goes on with
something that is not white space. -/
def PointsInto (text : List Char) (file : String) (p : Position) : Prop :=
  ∃ before after, text = before ++ after ∧ p.Counts file before ∧ Rule.Stops Text.isBlank after

variable {text before : List Char} {file : String} {p : Position}

theorem length_le_utf8Len (cs : List Char) : cs.length ≤ utf8Len cs := by
  induction cs with
  | nil => exact Nat.le_refl 0
  | cons c cs ih =>
    have hpos := c.utf8Size_pos
    rw [List.length_cons, String.utf8Len_cons]
    omega

theorem toNat_ofNat_of_lt {n : Nat} (h : n < 2 ^ 32) : (UInt32.ofNat n).toNat = n := by
  rw [UInt32.toNat_ofNat', Nat.mod_eq_of_lt h]

/-- No count is larger than the bytes and one more. -/
theorem counts_behind (h : utf8Len before < 2 ^ 32 - 1) :
    (behind file before).Counts file before := by
  have hlength := length_le_utf8Len before
  have hcount : before.count '\n' ≤ before.length := List.count_le_length
  have hwhile : (before.reverse.takeWhile (· ≠ '\n')).length ≤ before.length :=
    (List.takeWhile_sublist _).length_le.trans_eq List.length_reverse
  exact ⟨rfl, toNat_ofNat_of_lt (by omega), toNat_ofNat_of_lt (by omega),
    toNat_ofNat_of_lt (by omega)⟩

theorem StandsIn.trueTo (h : p.StandsIn text file) (hsize : utf8Len text < 2 ^ 32 - 1) :
    p.TrueTo text file := by
  obtain ⟨before, after, rfl, rfl⟩ := h
  rw [String.utf8Len_append] at hsize
  exact ⟨before, after, rfl, counts_behind (by omega)⟩

theorem StandsBefore.pointsInto (h : p.StandsBefore text file) (hsize : utf8Len text < 2 ^ 32 - 1) :
    p.PointsInto text file := by
  obtain ⟨before, after, rfl, rfl, hstops⟩ := h
  rw [String.utf8Len_append] at hsize
  exact ⟨before, after, rfl, counts_behind (by omega), hstops⟩

end Position

/-- **Every place that is reported is true to the text.** Tokens start and end at true places. The
place of a fault, whichever step finds it, is true as well, and is the end of the text or that of a
character other than white space. -/
theorem positions_trueTo (lib : Library) (source file : String)
    (hsize : source.utf8ByteSize < 2 ^ 32 - 1) :
    (∀ tokens, tokenize source file = .ok tokens → ∀ t ∈ tokens,
      t.span.start.TrueTo source.toList file ∧ t.span.stop.TrueTo source.toList file) ∧
    (∀ d, tokenize source file = .error d → d.position.PointsInto source.toList file) ∧
    (∀ d, parseSource source file = .error d → d.position.PointsInto source.toList file) ∧
    (∀ d, checkSource lib source file = .error d →
      d.position.PointsInto source.toList file) := by
  rw [← utf8Len_toList] at hsize
  refine ⟨fun tokens htokens t ht => ?_, fun d hd => ?_, fun d hd => ?_, fun d hd => ?_⟩
  · have hplaces := standsIn_of_tokenize htokens t ht
    exact ⟨hplaces.1.trueTo hsize, hplaces.2.trueTo hsize⟩
  · exact (standsBefore_of_tokenize hd).pointsInto hsize
  · exact (standsBefore_of_verdicts (verdicts_parseSource source file) hd).pointsInto hsize
  · exact (standsBefore_of_checkSource hd).pointsInto hsize

/-- Faults of three steps on the second line of a text, behind a comment with a letter of two
bytes. -/
theorem positions_trueTo_secondLine :
    tokenize "// ä\n @" "f" = .error ⟨.unrecognised "@", ⟨7, 2, 2, "f"⟩⟩ ∧
    Position.PointsInto "// ä\n @".toList "f" ⟨7, 2, 2, "f"⟩ ∧
    parseSource "// ä\n ;" "f" = .error ⟨.unexpected ";", ⟨7, 2, 2, "f"⟩⟩ ∧
    Position.PointsInto "// ä\n ;".toList "f" ⟨7, 2, 2, "f"⟩ ∧
    checkSource .empty "// ä\n x();" "f" = .error ⟨.undeclared "x", ⟨7, 2, 2, "f"⟩⟩ ∧
    Position.PointsInto "// ä\n x();".toList "f" ⟨7, 2, 2, "f"⟩ := by
  have hscan : tokenize "// ä\n @" "f" = .error ⟨.unrecognised "@", ⟨7, 2, 2, "f"⟩⟩ := by
    decide +kernel
  have hparse : parseSource "// ä\n ;" "f" = .error ⟨.unexpected ";", ⟨7, 2, 2, "f"⟩⟩ :=
    eq_error_of_map (f := fun _ => ()) (by decide +kernel)
  have hcheck : checkSource .empty "// ä\n x();" "f" =
      .error ⟨.undeclared "x", ⟨7, 2, 2, "f"⟩⟩ :=
    eq_error_of_map (f := fun _ => ()) (by decide +kernel)
  exact ⟨hscan, (positions_trueTo .empty _ _ (by decide)).2.1 _ hscan,
    hparse, (positions_trueTo .empty _ _ (by decide)).2.2.1 _ hparse,
    hcheck, (positions_trueTo .empty _ _ (by decide)).2.2.2 _ hcheck⟩

/-- `2 ^ 32 - 1` spaces end in column 0. -/
theorem not_positions_trueTo : ∃ (source : String) (p : Position),
    source.utf8ByteSize = 2 ^ 32 - 1 ∧ tokenize source "f" = .ok [.eofAt p] ∧
      ¬ p.TrueTo source.toList "f" := by
  refine ⟨String.ofList (List.replicate (2 ^ 32 - 1) ' ' ++ []),
    (Position.start "f").after (List.replicate (2 ^ 32 - 1) ' '), ?_, ?_, ?_⟩
  · rw [String.utf8ByteSize_ofList, List.append_nil, Sample.utf8Len_spaces]
  · rw [tokenize, Reader.ofText, String.toList_ofList,
      Reader.tokens_blanks Sample.isBlank_of_mem_spaces, Reader.tokens]
  · rintro ⟨before, after, -, hcounts⟩
    have hzero :
        ((Position.start "f").after (List.replicate (2 ^ 32 - 1) ' ')).column.toNat = 0 := by
      rw [Sample.after_spaces]
      rfl
    have hcolumn := hcounts.column
    omega

end Quill
