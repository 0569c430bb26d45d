import Quill.Proofs.Lexeme

/-!
# Tokens tile their text

`Scans r ts r'` says that a reader goes from `r` to `r'` by matches of the first rule that fits, one
behind the other, and finds the tokens `ts` on its way. Whether the scan of a text ends or fails, it
has gone some way in this manner (`Reader.scans_of_ok`, `Reader.scans_of_error`). What holds of the
tokens is proved from these steps, by induction on them.

Offsets count bytes, in 32 bits. `Text.Holds text a b part after` says that `part` stands in the
text from `a` to `b`, and `after` behind it; so both offsets lie in the text, and between two
characters. A reader `Fits` if no offset wraps around in what it has left to read; it goes on to
fit, match by match.

Results:
* `Scans.found`: each token is what the first rule makes of the text where it stands.
* `Scans.increasing`, `Scans.filled`: the tokens follow each other, and nothing but white space and
  comments is between them.
* **`tokenize_tiles`**: the tokens of a text of less than `2 ^ 32` bytes tile it, and those before a
  fault tile the text before.
* `not_tokenize_tiles`: in a text of `2 ^ 32` bytes the end is found at offset 0.
-/

namespace Quill

open String (utf8Len)

/-! ## Parts of a text -/

/-- From offset `a` to offset `b` the text holds `part`, and behind that `after`. -/
def Text.Holds (text : List Char) (a b : Nat) (part after : List Char) : Prop :=
  ∃ before, text = before ++ part ++ after ∧ a = utf8Len before ∧ b = utf8Len (before ++ part)

/-- White space and comments, with `after` behind them. A comment runs to the end of its line. -/
inductive Filler : List Char → List Char → Prop
  | nil {after : List Char} : Filler [] after
  | blank {c : Char} {gap after : List Char} (hc : Text.isBlank c = true) (h : Filler gap after) :
      Filler (c :: gap) after
  | comment {line gap after : List Char} (hline : '\n' ∉ line)
      (hend : ∀ c ∈ (gap ++ after).head?, c = '\n') (h : Filler gap after) :
      Filler ('/' :: '/' :: (line ++ gap)) after

/-- The token is written like that: a string between quotes, as a text that denotes its value; any
other token as its value. -/
def Token.Spelled (t : Token) (lexeme : List Char) : Prop :=
  if t.kind = .string then
    ∃ body, lexeme = '"' :: (body ++ ['"']) ∧ t.value = String.ofList (Rule.unescape body)
  else t.value = String.ofList lexeme

/-- The stretches before, between and behind tokens, from one offset to another. -/
def gaps (start : Nat) (tokens : List Token) (stop : Nat) : List (Nat × Nat) :=
  match tokens with
  | [] => [(start, stop)]
  | t :: ts => (start, t.span.start.offset.toNat) :: gaps t.span.stop.offset.toNat ts stop

/-- The tokens tile the text up to the offset `stop`. -/
structure Tiled (text : List Char) (stop : Nat) (tokens : List Token) : Prop where
  /-- No token is empty. -/
  nonempty : ∀ t ∈ tokens, t.span.start.offset.toNat < t.span.stop.offset.toNat
  /-- They follow each other. -/
  increasing : tokens.Pairwise fun t u => t.span.stop.offset.toNat ≤ u.span.start.offset.toNat
  /-- Each is written where it stands, and is what the first rule that matches there makes of it. -/
  written : ∀ t ∈ tokens, ∃ rule lexeme after,
    Text.Holds text t.span.start.offset.toNat t.span.stop.offset.toNat lexeme after ∧
      t.Spelled lexeme ∧
      Rule.first? (lexeme ++ after) = some (rule, lexeme, after) ∧
      rule.token? lexeme = some (t.kind, t.value)
  /-- Nothing but white space and comments is before, between and behind them. -/
  filled : ∀ gap ∈ gaps 0 tokens stop, ∃ part after,
    Text.Holds text gap.1 gap.2 part after ∧ Filler part after

/-! ## What a match is -/

namespace Rule

variable {rule : Rule} {cs lexeme rest : List Char}

/-- Where no rule is the first to match, none matches. -/
theorem split?_eq_none_of_first? (h : first? cs = none) : ∀ rule ∈ all, rule.split? cs = none :=
  fun rule hrule => Option.map_eq_none_iff.mp (List.findSome?_eq_none_iff.mp h rule hrule)

theorem all_of_run? {p : Char → Bool} (h : run? p cs = some (lexeme, rest)) :
    ∀ c ∈ lexeme, p c = true := by
  unfold run? at h
  split at h
  · cases h
  · rename_i hwhile
    obtain ⟨rfl, -⟩ := Prod.mk.inj (Option.some.inj h)
    intro c hc
    rw [← hwhile] at hc
    exact List.mem_takeWhile_imp hc

/-- What stands up to a quote ends with it. -/
theorem eq_append_of_splitQuoted? (h : splitQuoted? cs = some (lexeme, rest)) :
    ∃ body, lexeme = body ++ ['"'] := by
  fun_induction splitQuoted? cs generalizing lexeme with
  | case1 | case3 | case4 | case5 => cases h
  | case2 r =>
    obtain ⟨rfl, -⟩ := Prod.mk.inj (Option.some.inj h)
    exact ⟨[], rfl⟩
  | case6 c r _ ih =>
    obtain ⟨⟨l, t⟩, hl, heq⟩ := Option.map_eq_some_iff.1 h
    obtain ⟨rfl, rfl⟩ := Prod.mk.inj heq
    obtain ⟨body, hbody⟩ := ih hl
    exact ⟨'\\' :: c :: body, by simp [hbody]⟩
  | case7 c r _ _ _ _ _ ih =>
    obtain ⟨⟨l, t⟩, hl, heq⟩ := Option.map_eq_some_iff.1 h
    obtain ⟨rfl, rfl⟩ := Prod.mk.inj heq
    obtain ⟨body, hbody⟩ := ih hl
    exact ⟨c :: body, by simp [hbody]⟩

theorem eq_quoted_of_split? (h : Rule.quoted.split? cs = some (lexeme, rest)) :
    ∃ body, lexeme = '"' :: (body ++ ['"']) := by
  simp only [split?, Pattern.split?] at h
  split at h
  · obtain ⟨⟨l, t⟩, hl, heq⟩ := Option.map_eq_some_iff.1 h
    obtain ⟨rfl, rfl⟩ := Prod.mk.inj heq
    obtain ⟨body, rfl⟩ := eq_append_of_splitQuoted? hl
    exact ⟨body, rfl⟩
  · cases h

/-- A mark is written as it is spelled. -/
theorem eq_spelling_of_token? {m : Mark} {value : String} (hrule : rule ∈ all)
    (hsplit : rule.split? cs = some (lexeme, rest))
    (htoken : rule.token? lexeme = some (.mark m, value)) : lexeme = m.spelling.toList := by
  cases hrule using mem_cases with
  | mark m' =>
    cases htoken
    exact eq_of_splitSpelling? hsplit
  | word =>
    simp only [token?, Handler.token?] at htoken
    split at htoken <;> cases htoken
  | quoted | decimal | integer | blank | comment => cases htoken

/-- A token is written like the match that it is. -/
theorem spelled_of_token? {kind : TokenKind} {value : String} {span : Span} (hrule : rule ∈ all)
    (hsplit : rule.split? cs = some (lexeme, rest)) (h : rule.token? lexeme = some (kind, value)) :
    Token.Spelled ⟨kind, value, span⟩ lexeme := by
  unfold Token.Spelled
  cases hrule using mem_cases with
  | word =>
    simp only [token?, Handler.token?] at h
    split at h
    · cases h
      simp
    · cases h
      simp
  | quoted =>
    cases h
    obtain ⟨body, rfl⟩ := eq_quoted_of_split? hsplit
    exact ⟨body, rfl, by simp⟩
  | mark m =>
    -- the value is the text of the handler, and the match is the text of the pattern
    cases h
    rw [eq_of_splitSpelling? hsplit]
    simp
  | blank | comment => cases h
  | decimal | integer =>
    cases h
    simp

/-- What is passed over is white space or a comment. -/
theorem filler_of_token?_none {gap after : List Char} (hrule : rule ∈ all)
    (hsplit : rule.split? cs = some (lexeme, gap ++ after)) (h : rule.token? lexeme = none)
    (hgap : Filler gap after) : Filler (lexeme ++ gap) after := by
  cases hrule using mem_cases with
  | blank =>
    have hblank : ∀ c ∈ lexeme, Text.isBlank c = true := all_of_run? hsplit
    clear hsplit h
    induction lexeme with
    | nil => exact hgap
    | cons c lexeme ih =>
      obtain ⟨hc, hblank⟩ := List.forall_mem_cons.mp hblank
      exact .blank hc (ih hblank)
  | comment =>
    simp only [split?, Pattern.split?] at hsplit
    split at hsplit
    · rename_i text
      obtain ⟨rfl, hrest⟩ := Prod.mk.inj (Option.some.inj hsplit)
      refine .comment (fun hmem => ?_) (fun c hc => ?_) hgap
      · simpa using List.mem_takeWhile_imp hmem
      · -- the comment ends where something is not taken into it, and that is a newline
        rw [← hrest] at hc
        have hnot := List.head?_dropWhile_not (· ≠ '\n') text
        rw [Option.mem_def.mp hc] at hnot
        simpa using hnot
    · cases hsplit
  | word =>
    simp only [token?, Handler.token?] at h
    split at h <;> cases h
  | quoted | decimal | integer | mark => cases h

end Rule

/-! ## Steps of a scan -/

/-- The reader goes from one place to another, match by match, and finds the tokens. -/
inductive Scans : Reader → List Token → Reader → Prop
  | done {r : Reader} : Scans r [] r
  | skip {r r' : Reader} {rule : Rule} {lexeme rest : List Char} {ts : List Token}
      (hfirst : Rule.first? r.rest = some (rule, lexeme, rest)) (hskip : rule.token? lexeme = none)
      (h : Scans ⟨rest, r.position.after lexeme⟩ ts r') : Scans r ts r'
  | token {r r' : Reader} {rule : Rule} {lexeme rest : List Char} {kind : TokenKind}
      {value : String} {ts : List Token}
      (hfirst : Rule.first? r.rest = some (rule, lexeme, rest))
      (htoken : rule.token? lexeme = some (kind, value))
      (h : Scans ⟨rest, r.position.after lexeme⟩ ts r') :
      Scans r (⟨kind, value, ⟨r.position, r.position.after lexeme⟩⟩ :: ts) r'

namespace Reader

/-- A scan that ends has come to the end of the text. -/
theorem scans_of_ok {r : Reader} {tokens : List Token} (h : r.tokens = .ok tokens) :
    ∃ ts p, Scans r ts ⟨[], p⟩ ∧ tokens = ts ++ [.eofAt p] := by
  fun_induction Reader.tokens r generalizing tokens with
  | case1 p =>
    cases h
    exact ⟨[], p, .done, rfl⟩
  | case2 | case3 => cases h
  | case4 =>
    rename_i cs p rule lexeme rest hfirst next ts hrest htoken ih
    cases h
    obtain ⟨us, q, hscans, rfl⟩ := ih hrest
    have hnext : next = ⟨rest, p.after lexeme⟩ := advance_of_first? hfirst p
    exact ⟨us, q, .skip hfirst htoken (hnext ▸ hscans), rfl⟩
  | case5 =>
    rename_i cs p rule lexeme rest hfirst next ts hrest kind value htoken ih
    cases h
    obtain ⟨us, q, hscans, rfl⟩ := ih hrest
    have hnext : next = ⟨rest, p.after lexeme⟩ := advance_of_first? hfirst p
    rw [hnext] at hscans ⊢
    exact ⟨_, q, .token hfirst htoken hscans, rfl⟩

/-- A scan that fails has come to a place where no rule matches. -/
theorem scans_of_error {r : Reader} {d : Diagnostic} (h : r.tokens = .error d) :
    ∃ ts c cs p, Scans r ts ⟨c :: cs, p⟩ ∧ Rule.first? (c :: cs) = none ∧
      d = ⟨.unrecognised (String.singleton c), p⟩ := by
  fun_induction Reader.tokens r with
  | case1 => cases h
  | case2 c cs p hfirst =>
    cases h
    exact ⟨[], c, cs, p, .done, hfirst, rfl⟩
  | case3 =>
    rename_i cs p rule lexeme rest hfirst next d' hrest ih
    cases h
    obtain ⟨us, c', cs', q, hscans, hnone, hd⟩ := ih hrest
    rw [show next = ⟨rest, p.after lexeme⟩ from advance_of_first? hfirst p] at hscans
    cases htoken : rule.token? lexeme with
    | none => exact ⟨us, c', cs', q, .skip hfirst htoken hscans, hnone, hd⟩
    | some pair => exact ⟨_, c', cs', q, .token hfirst htoken hscans, hnone, hd⟩
  | case4 | case5 => cases h

end Reader

/-! ## Offsets -/

namespace Position

/-- A place behind a text is as many bytes further on, modulo `2 ^ 32`. -/
theorem offset_after (p : Position) (text : List Char) :
    (p.after text).offset = p.offset + .ofNat (utf8Len text) := by
  induction text generalizing p with
  | nil => simp
  | cons c text ih =>
    have hnext : (p.next c).offset = p.offset + .ofNat c.utf8Size := by
      unfold next
      split_ifs <;> rfl
    rw [after_cons, ih, hnext, String.utf8Len_cons, UInt32.ofNat_add, UInt32.add_assoc,
      UInt32.add_comm (.ofNat c.utf8Size)]

theorem toNat_offset_after {p : Position} {text : List Char}
    (h : p.offset.toNat + utf8Len text < 2 ^ 32) :
    (p.after text).offset.toNat = p.offset.toNat + utf8Len text := by
  rw [offset_after, UInt32.toNat_add, UInt32.toNat_ofNat', Nat.add_mod_mod, Nat.mod_eq_of_lt h]

end Position

/-- No offset wraps around in what is left to read. -/
def Reader.Fits (r : Reader) : Prop := r.position.offset.toNat + utf8Len r.rest < 2 ^ 32

theorem Reader.fits_ofText {source : String} (file : String) (h : source.utf8ByteSize < 2 ^ 32) :
    (Reader.ofText source file).Fits := by
  rw [← String.ofList_toList (s := source), String.utf8ByteSize_ofList] at h
  simpa [Fits, ofText, Position.start] using h

/-- What is left behind a part still fits. -/
theorem Reader.Fits.after {part rest : List Char} {p : Position}
    (h : Reader.Fits ⟨part ++ rest, p⟩) : Reader.Fits ⟨rest, p.after part⟩ := by
  simp only [Fits, String.utf8Len_append] at h ⊢
  rw [Position.toNat_offset_after (by omega)]
  omega

theorem Reader.Fits.of_first? {r : Reader} {rule : Rule} {lexeme rest : List Char} (h : r.Fits)
    (hfirst : Rule.first? r.rest = some (rule, lexeme, rest)) :
    Reader.Fits ⟨rest, r.position.after lexeme⟩ := by
  obtain ⟨cs, p⟩ := r
  simp only at hfirst
  rw [← Rule.append_of_split? (Rule.split?_of_first? hfirst)] at h
  exact h.after

/-- The token stands in what is left to read, and is what the first rule makes of the text there. -/
def Reader.Finds (r : Reader) (t : Token) : Prop :=
  ∃ before rule lexeme after, r.rest = before ++ (lexeme ++ after) ∧
    t.span.start = r.position.after before ∧ t.span.stop = (r.position.after before).after lexeme ∧
    Rule.first? (lexeme ++ after) = some (rule, lexeme, after) ∧
    rule.token? lexeme = some (t.kind, t.value)

/-- What is found behind a match is found from the match on. -/
theorem Reader.Finds.of_first? {r : Reader} {rule : Rule} {lexeme rest : List Char} {t : Token}
    (h : Reader.Finds ⟨rest, r.position.after lexeme⟩ t)
    (hfirst : Rule.first? r.rest = some (rule, lexeme, rest)) : r.Finds t := by
  obtain ⟨before, rule', lexeme', after, hrest, hstart, hstop, hmatch⟩ := h
  simp only at hrest
  have happend := Rule.append_of_split? (Rule.split?_of_first? hfirst)
  refine ⟨lexeme ++ before, rule', lexeme', after, ?_, ?_, ?_, hmatch⟩
  · rw [← happend, hrest, List.append_assoc]
  · rw [hstart, Position.after_append]
  · rw [hstop, Position.after_append]

namespace Scans

variable {r r' : Reader} {ts : List Token}

/-- What has been read is a part of the text. -/
theorem exists_append (h : Scans r ts r') :
    ∃ read, r.rest = read ++ r'.rest ∧ r'.position = r.position.after read := by
  induction h with
  | done => exact ⟨[], rfl, rfl⟩
  | skip hfirst _ _ ih | token hfirst _ _ ih =>
    obtain ⟨read, hrest, hposition⟩ := ih
    simp only at hrest
    refine ⟨_ ++ read, ?_, hposition.trans (Position.after_append _ _ _).symm⟩
    rw [← Rule.append_of_split? (Rule.split?_of_first? hfirst), List.append_assoc, ← hrest]

/-- **Each token is what the first rule makes of the text** where it stands. -/
theorem found (h : Scans r ts r') : ∀ t ∈ ts, r.Finds t := by
  induction h with
  | done => exact List.forall_mem_nil _
  | skip hfirst _ _ ih => exact fun t ht => (ih t ht).of_first? hfirst
  | token hfirst htoken _ ih =>
    refine List.forall_mem_cons.mpr ⟨?_, fun t ht => (ih t ht).of_first? hfirst⟩
    have happend := Rule.append_of_split? (Rule.split?_of_first? hfirst)
    rw [← happend] at hfirst
    exact ⟨[], _, _, _, happend.symm, rfl, rfl, hfirst, htoken⟩

/-- In a text that fits a token takes at least one byte, and starts no earlier than it is read. -/
theorem offsets (h : Scans r ts r') (hfits : r.Fits) : ∀ t ∈ ts,
    r.position.offset.toNat ≤ t.span.start.offset.toNat ∧
      t.span.start.offset.toNat < t.span.stop.offset.toNat := by
  intro t ht
  obtain ⟨before, rule, lexeme, after, hrest, hstart, hstop, hfirst, -⟩ := h.found t ht
  have hne : lexeme ≠ [] :=
    Rule.ne_nil_of_split? (Rule.mem_of_first? hfirst) (Rule.split?_of_first? hfirst)
  have hsize : utf8Len lexeme ≠ 0 := fun hzero => hne (String.utf8Len_eq_zero.mp hzero)
  rw [Reader.Fits, hrest, String.utf8Len_append, String.utf8Len_append] at hfits
  rw [hstop, hstart, ← Position.after_append, Position.toNat_offset_after (by omega),
    Position.toNat_offset_after (by rw [String.utf8Len_append]; omega), String.utf8Len_append]
  omega

theorem increasing (h : Scans r ts r') (hfits : r.Fits) :
    ts.Pairwise fun t u => t.span.stop.offset.toNat ≤ u.span.start.offset.toNat := by
  induction h with
  | done => exact .nil
  | skip hfirst _ _ ih => exact ih (hfits.of_first? hfirst)
  | token hfirst _ hrest ih =>
    exact .cons (fun u hu => (hrest.offsets (hfits.of_first? hfirst) u hu).1)
      (ih (hfits.of_first? hfirst))

/-- White space and comments are passed over up to the next token, or to where the reader comes. -/
theorem exists_gap (h : Scans r ts r') : ∃ gap r₁, r.rest = gap ++ r₁.rest ∧
    r₁.position = r.position.after gap ∧ Filler gap r₁.rest ∧
    (ts = [] ∧ r₁ = r' ∨ ∃ t us lexeme rest, ts = t :: us ∧ r₁.rest = lexeme ++ rest ∧
      t.span = ⟨r₁.position, r₁.position.after lexeme⟩ ∧
      Scans ⟨rest, r₁.position.after lexeme⟩ us r') := by
  induction h with
  | @done r => exact ⟨[], r, rfl, rfl, .nil, .inl ⟨rfl, rfl⟩⟩
  | @skip r r' rule lexeme rest ts hfirst hskip _ ih =>
    obtain ⟨gap, r₁, hrest, hposition, hfiller, hnext⟩ := ih
    have hsplit := Rule.split?_of_first? hfirst
    have happend := Rule.append_of_split? hsplit
    simp only at hrest hposition
    subst hrest
    refine ⟨lexeme ++ gap, r₁, ?_, ?_, ?_, hnext⟩
    · rw [← happend, List.append_assoc]
    · rw [hposition, Position.after_append]
    · exact Rule.filler_of_token?_none (Rule.mem_of_first? hfirst) hsplit hskip hfiller
  | @token r r' rule lexeme rest kind value ts hfirst htoken hscans ih =>
    have happend := Rule.append_of_split? (Rule.split?_of_first? hfirst)
    exact ⟨[], r, rfl, rfl, .nil, .inr ⟨_, ts, lexeme, rest, rfl, happend.symm, rfl, hscans⟩⟩

/-- **Nothing but white space and comments is between the tokens**, from where the reader starts to
where it comes. -/
theorem filled : ∀ {ts : List Token} {r r' : Reader} (before : List Char), Scans r ts r' → r.Fits →
    r.position.offset.toNat = utf8Len before →
    ∀ gap ∈ gaps r.position.offset.toNat ts r'.position.offset.toNat, ∃ part after,
      Text.Holds (before ++ r.rest) gap.1 gap.2 part after ∧ Filler part after := by
  intro ts
  induction ts with
  | nil =>
    intro r r' before h hfits hstart range hrange
    obtain rfl := List.mem_singleton.mp hrange
    obtain ⟨gap, r₁, hrest, hposition, hfiller, ⟨-, rfl⟩ | ⟨_, _, _, _, hcons, -⟩⟩ := h.exists_gap
    · refine ⟨gap, r₁.rest, ⟨before, by rw [hrest, List.append_assoc], hstart, ?_⟩, hfiller⟩
      rw [Reader.Fits, hrest, String.utf8Len_append] at hfits
      rw [hposition, Position.toNat_offset_after (by omega), hstart, String.utf8Len_append]
    · cases hcons
  | cons t ts ih =>
    intro r r' before h hfits hstart
    obtain ⟨gap, r₁, hrest, hposition, hfiller, ⟨hnil, -⟩ | ⟨t, _, lexeme, rest, ⟨⟩, hlexeme, hspan,
      hscans⟩⟩ := h.exists_gap
    · cases hnil
    · have hbound := hfits
      rw [Reader.Fits, hrest, hlexeme, String.utf8Len_append, String.utf8Len_append] at hbound
      have hgap : r₁.position.offset.toNat = utf8Len (before ++ gap) := by
        rw [hposition, Position.toNat_offset_after (by omega), hstart, String.utf8Len_append]
      have hnext : (r₁.position.after lexeme).offset.toNat = utf8Len (before ++ gap ++ lexeme) := by
        rw [String.utf8Len_append, ← hgap]
        exact Position.toNat_offset_after (by rw [hgap, String.utf8Len_append, ← hstart]; omega)
      have hfits : Reader.Fits ⟨rest, r₁.position.after lexeme⟩ := by
        show (r₁.position.after lexeme).offset.toNat + utf8Len rest < 2 ^ 32
        rw [hnext, String.utf8Len_append, String.utf8Len_append, ← hstart]
        omega
      have htext : before ++ r.rest = before ++ gap ++ lexeme ++ rest := by
        rw [hrest, hlexeme]
        simp only [List.append_assoc]
      simp only [gaps, hspan]
      refine List.forall_mem_cons.mpr ⟨⟨gap, r₁.rest, ⟨before, ?_, hstart, hgap⟩, hfiller⟩, ?_⟩
      · rw [hrest, List.append_assoc]
      · rw [htext]
        exact ih _ hscans hfits hnext

/-- Where the reader starts at the start of a text, the tokens tile it. -/
theorem tiled {source file : String} (h : Scans (.ofText source file) ts r')
    (hfits : (Reader.ofText source file).Fits) :
    Tiled source.toList r'.position.offset.toNat ts where
  nonempty := fun t ht => (h.offsets hfits t ht).2
  increasing := h.increasing hfits
  written := by
    intro t ht
    obtain ⟨before, rule, lexeme, after, hrest, hstart, hstop, hfirst, htoken⟩ := h.found t ht
    have hspelled : Token.Spelled ⟨t.kind, t.value, t.span⟩ lexeme :=
      Rule.spelled_of_token? (Rule.mem_of_first? hfirst) (Rule.split?_of_first? hfirst) htoken
    rw [Reader.Fits, hrest, String.utf8Len_append, String.utf8Len_append] at hfits
    refine ⟨rule, lexeme, after, ⟨before, ?_, ?_, ?_⟩, hspelled, hfirst, htoken⟩
    · rw [List.append_assoc]
      exact hrest
    · rw [hstart, Position.toNat_offset_after (by omega)]
      exact Nat.zero_add _
    · rw [hstop, ← Position.after_append,
        Position.toNat_offset_after (by rw [String.utf8Len_append]; omega)]
      exact Nat.zero_add _
  filled := Scans.filled [] h hfits rfl

end Scans

/-! ## Texts -/

theorem exists_of_map_eq_ok {α β : Type} {x : Except Diagnostic α} {f : α → β} {b : β}
    (h : x.map f = .ok b) : ∃ a, x = .ok a ∧ f a = b := by
  cases x with
  | error d => cases h
  | ok a => exact ⟨a, rfl, Except.ok.inj h⟩

theorem eq_error_of_map {α β : Type} {x : Except Diagnostic α} {f : α → β} {d : Diagnostic}
    (h : x.map f = .error d) : x = .error d := by
  cases x with
  | error e => exact congrArg Except.error (Except.error.inj h)
  | ok a => cases h

theorem utf8Len_toList (s : String) : utf8Len s.toList = s.utf8ByteSize := by
  rw [← String.utf8ByteSize_ofList, String.ofList_toList]

/-- **Tokens tile the text.** They follow each other, each is written where it stands, and only
white space and comments are left between them; the last one stands at the end. Where the scan
fails, no rule matches, and tokens tile the text up to there. -/
theorem tokenize_tiles (source file : String) (hsize : source.utf8ByteSize < 2 ^ 32) :
    (∀ tokens, tokenize source file = .ok tokens → ∃ ts last, tokens = ts ++ [last] ∧
      last.kind = .eof ∧ last.span.start.offset.toNat = source.utf8ByteSize ∧
      last.span.stop.offset.toNat = source.utf8ByteSize ∧
      Tiled source.toList source.utf8ByteSize ts) ∧
    (∀ d, tokenize source file = .error d → ∃ ts rest,
      Text.Holds source.toList d.position.offset.toNat source.utf8ByteSize rest [] ∧ rest ≠ [] ∧
      (∀ rule ∈ Rule.all, rule.split? rest = none) ∧
      Tiled source.toList d.position.offset.toNat ts) := by
  have hfits := Reader.fits_ofText file hsize
  -- what is read up to a place has as many bytes as the offset says
  have hoffset : ∀ {ts : List Token} {r : Reader}, Scans (.ofText source file) ts r →
      ∃ read, source.toList = read ++ r.rest ∧ r.position.offset.toNat = utf8Len read := by
    intro ts r hscans
    obtain ⟨read, hread, hposition⟩ := hscans.exists_append
    rw [Reader.Fits, hread, String.utf8Len_append] at hfits
    refine ⟨read, hread, ?_⟩
    rw [hposition, Position.toNat_offset_after (by omega)]
    exact Nat.zero_add _
  refine ⟨fun tokens htokens => ?_, fun d hd => ?_⟩
  · obtain ⟨ts, p, hscans, rfl⟩ := Reader.scans_of_ok htokens
    obtain ⟨read, hread, hp⟩ := hoffset hscans
    have hend : p.offset.toNat = source.utf8ByteSize := by
      rw [← utf8Len_toList, hread, List.append_nil]
      exact hp
    exact ⟨ts, .eofAt p, rfl, rfl, hend, hend, hend ▸ hscans.tiled hfits⟩
  · obtain ⟨ts, c, cs, p, hscans, hnone, rfl⟩ := Reader.scans_of_error hd
    obtain ⟨read, hread, hp⟩ := hoffset hscans
    refine ⟨ts, c :: cs, ⟨read, ?_, hp, ?_⟩, List.cons_ne_nil c cs,
      Rule.split?_eq_none_of_first? hnone, hscans.tiled hfits⟩
    · rw [hread, List.append_nil]
    · rw [← hread, utf8Len_toList]

/-- A text with a string, an escape, a letter of two bytes and a comment is cut into five tokens and
the closing one. A text with a stray character is cut up to there. -/
theorem tokenize_tiles_sample :
    (∃ ts last, tokenize "let a = \"ä\\n\"; // x" "f" = .ok (ts ++ [last]) ∧ ts.length = 5 ∧
      Tiled "let a = \"ä\\n\"; // x".toList 20 ts) ∧
    ∃ d ts, tokenize "a; // ä\n @;" "f" = .error d ∧ d.position.offset = 10 ∧
      Tiled "a; // ä\n @;".toList 10 ts := by
  have hread : (tokenize "let a = \"ä\\n\"; // x" "f").map List.length = .ok 6 := by
    decide +kernel
  have hfail : tokenize "a; // ä\n @;" "f" = .error ⟨.unrecognised "@", ⟨10, 2, 2, "f"⟩⟩ := by
    decide +kernel
  constructor
  · obtain ⟨tokens, htokens, hlength⟩ := exists_of_map_eq_ok hread
    obtain ⟨ts, last, rfl, -, -, -, htiled⟩ := (tokenize_tiles _ _ (by decide)).1 tokens htokens
    refine ⟨ts, last, htokens, ?_, htiled⟩
    rw [List.length_append] at hlength
    exact Nat.add_right_cancel hlength
  · obtain ⟨ts, _, -, -, -, htiled⟩ := (tokenize_tiles _ _ (by decide)).2 _ hfail
    exact ⟨_, ts, hfail, rfl, htiled⟩

/-! ## Long texts -/

namespace Sample

/-- Blanks on two lines. -/
def blanks (n m : Nat) : List Char := List.replicate n ' ' ++ '\n' :: List.replicate m ' '

theorem isBlank_of_mem_spaces {n : Nat} : ∀ c ∈ List.replicate n ' ', Text.isBlank c = true := by
  intro c hc
  rw [(List.mem_replicate.mp hc).2]
  rfl

theorem utf8Len_spaces (n : Nat) : utf8Len (List.replicate n ' ') = n := by
  induction n with
  | zero => rfl
  | succ n ih =>
    rw [List.replicate_succ, String.utf8Len_cons, ih]
    rfl

theorem isBlank_of_mem_blanks {n m : Nat} : ∀ c ∈ blanks n m, Text.isBlank c = true := by
  intro c hc
  rcases List.mem_append.mp hc with hc | hc
  · exact isBlank_of_mem_spaces c hc
  · rcases List.mem_cons.mp hc with rfl | hc
    · rfl
    · exact isBlank_of_mem_spaces c hc

theorem utf8Len_blanks (n m : Nat) : utf8Len (blanks n m) = n + 1 + m := by
  rw [blanks, String.utf8Len_append, String.utf8Len_cons, utf8Len_spaces, utf8Len_spaces,
    show '\n'.utf8Size = 1 from rfl]
  omega

theorem after_spaces (p : Position) (n : Nat) : p.after (List.replicate n ' ') =
    ⟨p.offset + .ofNat n, p.line, p.column + .ofNat n, p.file⟩ := by
  induction n generalizing p with
  | zero => simp
  | succ n ih =>
    have hnext : p.next ' ' = ⟨p.offset + 1, p.line, p.column + 1, p.file⟩ := rfl
    rw [List.replicate_succ, Position.after_cons, ih, hnext]
    simp [UInt32.ofNat_add, UInt32.add_assoc, UInt32.add_comm]

theorem after_blanks (n m : Nat) (file : String) : (Position.start file).after (blanks n m) =
    ⟨.ofNat (n + 1 + m), 2, 1 + .ofNat m, file⟩ := by
  have hbreak : ∀ p : Position, p.next '\n' = ⟨p.offset + 1, p.line + 1, 1, p.file⟩ := fun _ => rfl
  rw [blanks, Position.after_append, Position.after_cons, after_spaces, after_spaces, hbreak]
  simp [Position.start, UInt32.ofNat_add]

/-- Tokens behind blanks are those of the rest, at its place. -/
theorem tokenize_blanks (n m : Nat) (file : String) (rest : List Char) :
    tokenize (String.ofList (blanks n m ++ rest)) file =
      Reader.tokens ⟨rest, (Position.start file).after (blanks n m)⟩ := by
  rw [tokenize, Reader.ofText, String.toList_ofList]
  exact Reader.tokens_blanks isBlank_of_mem_blanks rest _

end Sample

/-- In a text of `2 ^ 32` bytes, all blank, the only token stands at offset 0. -/
theorem not_tokenize_tiles : ∃ source : String, source.utf8ByteSize = 2 ^ 32 ∧
    ∃ p, tokenize source "f" = .ok [.eofAt p] ∧ p.offset.toNat = 0 := by
  have hsize : utf8Len (Sample.blanks (2 ^ 31 - 1) (2 ^ 31)) = 2 ^ 32 := Sample.utf8Len_blanks _ _
  refine ⟨String.ofList (Sample.blanks (2 ^ 31 - 1) (2 ^ 31) ++ []), ?_,
    (Position.start "f").after (Sample.blanks (2 ^ 31 - 1) (2 ^ 31)), ?_, ?_⟩
  · rw [String.utf8ByteSize_ofList, List.append_nil, hsize]
  · rw [Sample.tokenize_blanks, Reader.tokens]
  · rw [Position.offset_after, hsize]
    rfl

end Quill
