import Quill.Proofs.Location
import Quill.Proofs.Lookahead
import Quill.Proofs.Nesting

/-!
# Texts one behind the other

A newline ends whatever stands before it: a word, a number, a mark or a comment; and no quoted text
goes over a newline. So the tokens of two texts with a newline between them are those of the first
and those of the second (`tokens_newline`), and the latter stand further on by a number of bytes and
lines (`Position.later`). White space is the one match that may go over the newline, and it is no
token.

Statements that are read up to the end of the first text are read where the tokens of the second
follow, and the statements of the second wherever they start. So the two programs are read one
behind the other. The budget grows with the tokens, and each statement takes a token at least.

Offsets and lines count modulo `2 ^ 32`, and so do the numbers that are added to them. Where both
texts together are shorter than that, nothing wraps around, and the numbers are added as numbers
(`Position.Later`).

Results:
* `Rule.first?_newline`: a match before a newline.
* `tokens_newline`, `tokens_later`: the tokens of two texts, and of a text that stands further on.
* `Position.StandsIn.later`: adding to a place of a text that is short enough.
* **`parseSource_newline`**: the program that two texts write.
* `not_parseSource_newline`: no place has its offset increased by `2 ^ 32`.
-/

namespace Quill

open Syntax
open String (utf8Len)

/-! ## Places further on -/

/-- The same place of a text that stands further on, by bytes and by whole lines. -/
def Position.later (bytes lines : Nat) (p : Position) : Position :=
  ⟨p.offset + .ofNat bytes, p.line + .ofNat lines, p.column, p.file⟩

/-- The token where it stands in a text that is further on. -/
def Token.later (bytes lines : Nat) (t : Token) : Token :=
  ⟨t.kind, t.value, ⟨t.span.start.later bytes lines, t.span.stop.later bytes lines⟩⟩

/-- The correspondence of the places of a text with those of the same text further on, modulo
`2 ^ 32`. -/
def Correspondence.later (bytes lines : Nat) : Correspondence :=
  ⟨fun p q => q = p.later bytes lines, fun p q => q = p.later bytes lines⟩

/-- The second place is further on than the first by that many bytes and lines, in the same
column. -/
structure Position.Later (bytes lines : Nat) (p q : Position) : Prop where
  offset : q.offset.toNat = p.offset.toNat + bytes
  line : q.line.toNat = p.line.toNat + lines
  column : q.column = p.column
  file : q.file = p.file

/-- The correspondence of the places of a text with those of the same text further on. -/
def Correspondence.exactlyLater (bytes lines : Nat) : Correspondence :=
  ⟨Position.Later bytes lines, Position.Later bytes lines⟩

section

variable {bytes lines : Nat}

theorem Position.later_next (p : Position) (c : Char) :
    (p.later bytes lines).next c = (p.next c).later bytes lines := by
  unfold next later
  have hcomm : ∀ a b c : UInt32, a + b + c = a + c + b := by
    intro a b c
    ac_rfl
  split_ifs <;> simp [hcomm]

theorem Position.later_after (p : Position) (cs : List Char) :
    (p.later bytes lines).after cs = (p.after cs).later bytes lines := by
  induction cs generalizing p with
  | nil => rfl
  | cons c cs ih => rw [after_cons, after_cons, later_next, ih]

theorem Position.later_succ (p : Position) :
    (p.later bytes lines).succ = p.succ.later bytes lines := by
  have hcomm : ∀ a b : UInt32, a + b + 1 = a + 1 + b := by
    intro a b
    ac_rfl
  simp [succ, later, hcomm]

/-- A token is alike to the same token further on, if its places are. -/
theorem Token.alike_later {R : Correspondence} {t : Token}
    (hstart : R.starts t.span.start (t.span.start.later bytes lines))
    (hstop : R.ends t.span.stop (t.span.stop.later bytes lines))
    (hmiddle : t.kind = .mark .shiftRight →
      R.starts t.span.start.succ (t.span.start.succ.later bytes lines) ∧
        R.ends t.span.start.succ (t.span.start.succ.later bytes lines)) :
    t.Alike R (t.later bytes lines) := by
  refine ⟨rfl, rfl, ⟨hstart, hstop⟩, fun hkind => ?_⟩
  rw [show (t.later bytes lines).span.start.succ = t.span.start.succ.later bytes lines from
    t.span.start.later_succ]
  exact hmiddle hkind

theorem Token.alike_map_later {R : Correspondence} {ts : List Token}
    (h : ∀ t ∈ ts, t.Alike R (t.later bytes lines)) :
    List.Forall₂ (Token.Alike R) ts (ts.map (Token.later bytes lines)) := by
  rw [List.forall₂_map_right_iff, List.forall₂_same]
  exact h

/-- In a text that is short enough nothing wraps around. -/
theorem Position.StandsIn.later {text : List Char} {file : String} {p : Position}
    (h : p.StandsIn text file) (hbytes : utf8Len text + bytes < 2 ^ 32)
    (hlines : 1 + text.count '\n' + lines < 2 ^ 32) :
    Position.Later bytes lines p (p.later bytes lines) := by
  obtain ⟨before, after, rfl, rfl⟩ := h
  rw [String.utf8Len_append] at hbytes
  rw [List.count_append] at hlines
  have hoffset : (behind file before).offset.toNat = utf8Len before := toNat_ofNat_of_lt (by omega)
  have hline : (behind file before).line.toNat = 1 + before.count '\n' :=
    toNat_ofNat_of_lt (by omega)
  refine ⟨?_, ?_, rfl, rfl⟩
  · rw [Position.later, UInt32.toNat_add, toNat_ofNat_of_lt (by omega), Nat.mod_eq_of_lt (by omega)]
  · rw [Position.later, UInt32.toNat_add, toNat_ofNat_of_lt (by omega), Nat.mod_eq_of_lt (by omega)]

end

/-! ## Matches before a newline -/

namespace Rule

/-- The parts of a text that is split, with a newline and more behind the second. -/
def before (ds : List Char) (r : List Char × List Char) : List Char × List Char :=
  (r.1, r.2 ++ '\n' :: ds)

theorem takeWhile_newline {p : Char → Bool} (hp : p '\n' = false) (cs ds : List Char) :
    (cs ++ '\n' :: ds).takeWhile p = cs.takeWhile p := by
  induction cs with
  | nil => simp [hp]
  | cons c cs ih => simp [List.takeWhile_cons, ih]

theorem dropWhile_newline {p : Char → Bool} (hp : p '\n' = false) (cs ds : List Char) :
    (cs ++ '\n' :: ds).dropWhile p = cs.dropWhile p ++ '\n' :: ds := by
  induction cs with
  | nil => simp [hp]
  | cons c cs ih =>
    rw [List.cons_append, List.dropWhile_cons, List.dropWhile_cons]
    split_ifs
    · exact ih
    · rfl

theorem run?_newline {p : Char → Bool} (hp : p '\n' = false) (cs ds : List Char) :
    run? p (cs ++ '\n' :: ds) = (run? p cs).map (before ds) := by
  unfold run?
  rw [takeWhile_newline hp, dropWhile_newline hp]
  cases cs.takeWhile p with
  | nil => rfl
  | cons c run => rfl

theorem splitExponent_newline (cs ds : List Char) :
    splitExponent (cs ++ '\n' :: ds) = before ds (splitExponent cs) := by
  have hsign : ∀ cs, splitSign (cs ++ '\n' :: ds) = before ds (splitSign cs) := by
    intro cs
    cases cs with
    | nil => rfl
    | cons c cs =>
      simp only [List.cons_append, splitSign]
      split_ifs
      · rfl
      · rfl
  cases cs with
  | nil => rfl
  | cons c cs =>
    have hrun := run?_newline (p := Char.isDigit) rfl (splitSign cs).2 ds
    simp only [List.cons_append, splitExponent, hsign cs, before, hrun]
    split_ifs
    · cases run? Char.isDigit (splitSign cs).2 with
      | none => rfl
      | some r => rfl
    · rfl

theorem splitDecimal?_newline (cs ds : List Char) :
    splitDecimal? (cs ++ '\n' :: ds) = (splitDecimal? cs).map (before ds) := by
  unfold splitDecimal?
  rw [run?_newline rfl]
  rcases run? Char.isDigit cs with _ | ⟨whole, _ | ⟨c, rest⟩⟩
  · rfl
  · rfl
  · by_cases hc : c = '.'
    · subst hc
      have hrun := run?_newline (p := Char.isDigit) rfl rest ds
      simp only [Option.map_some, before, List.cons_append, hrun]
      cases run? Char.isDigit rest with
      | none => rfl
      | some r => simp [before, splitExponent_newline]
    · simp [before, hc]

/-- No quoted text goes over a newline. -/
theorem splitQuoted?_newline (cs ds : List Char) :
    splitQuoted? (cs ++ '\n' :: ds) = (splitQuoted? cs).map (before ds) := by
  fun_induction splitQuoted? cs with
  | case1 => rfl
  | case2 r => rfl
  | case3 r => rfl
  | case4 => rfl
  | case5 r => rfl
  | case6 c r hc ih =>
    rw [List.cons_append, List.cons_append, splitQuoted?, ih]
    · cases splitQuoted? r <;> rfl
    · exact hc
  | case7 c r hquote hline hend _ hnext ih =>
    have hback : c ≠ '\\' := by
      intro hc
      cases r with
      | nil => exact hend hc rfl
      | cons d r => exact hnext d r hc rfl
    rw [List.cons_append, splitQuoted?, ih]
    · cases splitQuoted? r <;> rfl
    · exact hquote
    · exact hline
    · exact fun hc => absurd hc hback
    · exact fun _ hc => absurd hc hback
    · exact fun _ _ hc => absurd hc hback

theorem isPrefixOf_newline {s : List Char} (hs : '\n' ∉ s) (cs ds : List Char) :
    s.isPrefixOf (cs ++ '\n' :: ds) = s.isPrefixOf cs := by
  induction s generalizing cs with
  | nil => simp
  | cons c s ih =>
    obtain ⟨hc, hs⟩ := List.ne_and_not_mem_of_not_mem_cons hs
    cases cs with
    | nil => simp [List.isPrefixOf, hc.symm]
    | cons d cs => simp [List.isPrefixOf, ih hs cs]

theorem newline_notMem_spelling (m : Mark) : '\n' ∉ m.spelling.toList := by
  cases m <;> decide

theorem splitSpelling?_newline {s : List Char} (hs : '\n' ∉ s) (cs ds : List Char) :
    splitSpelling? s (cs ++ '\n' :: ds) = (splitSpelling? s cs).map (before ds) := by
  unfold splitSpelling?
  rw [isPrefixOf_newline hs]
  split_ifs with hprefix
  · have hle : s.length ≤ cs.length := (List.isPrefixOf_iff_prefix.mp hprefix).length_le
    rw [List.drop_append_of_le_length hle]
    rfl
  · rfl

theorem split?_quoted_newline (cs ds : List Char) :
    Rule.quoted.split? (cs ++ '\n' :: ds) = (Rule.quoted.split? cs).map (before ds) := by
  cases cs with
  | nil => rfl
  | cons c cs =>
    by_cases hc : c = '"'
    · subst hc
      simp [split?, Pattern.split?, splitQuoted?_newline, before, Function.comp_def]
    · simp [split?, Pattern.split?, hc]

/-- A comment goes up to the newline. -/
theorem split?_comment_newline (cs ds : List Char) :
    Rule.comment.split? (cs ++ '\n' :: ds) = (Rule.comment.split? cs).map (before ds) := by
  rcases cs with _ | ⟨c, _ | ⟨d, cs⟩⟩
  · rfl
  · simp [split?, Pattern.split?]
  · by_cases hc : c = '/' ∧ d = '/'
    · obtain ⟨rfl, rfl⟩ := hc
      simp [split?, Pattern.split?, takeWhile_newline, dropWhile_newline, before]
    · have hnone : ∀ rest, Rule.comment.split? (c :: d :: rest) = none := by
        intro rest
        simp only [split?, Pattern.split?]
        split
        · rename_i heq
          cases heq
          exact absurd ⟨rfl, rfl⟩ hc
        · rfl
      rw [List.cons_append, List.cons_append, hnone, hnone]
      rfl

/-- Whatever matches before a newline, other than white space, matches without what follows. -/
theorem split?_newline {rule : Rule} (hmem : rule ∈ all) (hrule : rule ≠ .blank)
    (cs ds : List Char) : rule.split? (cs ++ '\n' :: ds) = (rule.split? cs).map (before ds) := by
  cases hmem using mem_cases with
  | blank => exact absurd rfl hrule
  | word =>
    cases cs with
    | nil => rfl
    | cons c cs =>
      have hrun := run?_newline (p := isWordPart) rfl (c :: cs) ds
      simp only [List.cons_append, split?, Pattern.split?] at hrun ⊢
      split_ifs
      · exact hrun
      · rfl
  | decimal => exact splitDecimal?_newline cs ds
  | integer => exact run?_newline rfl cs ds
  | quoted => exact split?_quoted_newline cs ds
  | comment => exact split?_comment_newline cs ds
  | mark m => exact splitSpelling?_newline (newline_notMem_spelling m) cs ds

/-- **A match before a newline**: the first rule that matches, other than white space, is the same
without what follows. -/
theorem first?_newline {rule : Rule} {cs lexeme rest : List Char} (hrule : rule ≠ .blank)
    (h : first? cs = some (rule, lexeme, rest)) (ds : List Char) :
    first? (cs ++ '\n' :: ds) = some (rule, lexeme, rest ++ '\n' :: ds) := by
  obtain ⟨earlier, r, later, hall, hr, hnone⟩ := List.findSome?_eq_some_iff.mp h
  obtain ⟨s, hsplit, heq⟩ := Option.map_eq_some_iff.mp hr
  obtain ⟨rfl, rfl⟩ := Prod.mk.inj heq
  have hmem := mem_of_first? h
  refine first?_eq_some earlier later hall (fun e he => ?_) ?_
  · by_cases hblank : e = .blank
    · -- where white space is not the first to match, it does not match
      subst hblank
      refine run?_eq_none fun c hc => ?_
      cases cs with
      | nil => cases h
      | cons d cs =>
        cases hc
        by_contra hd
        rw [first?_of_isBlank (by simpa using hd)] at h
        cases h
        exact hrule rfl
    · have hearlier : e ∈ all := hall ▸ List.mem_append_left _ he
      rw [split?_newline hearlier hblank, Option.map_eq_none_iff.mp (hnone e he)]
      rfl
  · rw [split?_newline hmem hrule, hsplit]
    rfl

end Rule

/-! ## The tokens of two texts -/

namespace Scans

variable {r : Reader} {ts us : List Token} {p : Position}

/-- **The tokens of two texts with a newline between them** are those of the first, and those of the
second from where it stands. -/
theorem tokens_newline {ds : List Char} (h : Scans r ts ⟨[], p⟩)
    (hus : Reader.tokens ⟨ds, p.next '\n'⟩ = .ok us) :
    Reader.tokens ⟨r.rest ++ '\n' :: ds, r.position⟩ = .ok (ts ++ us) := by
  generalize hend : (⟨[], p⟩ : Reader) = r' at h
  induction h with
  | done =>
    subst hend
    rw [List.nil_append, Reader.tokens_blank rfl]
    exact hus
  | @skip r _ rule lexeme rest ts hfirst hskip _ ih =>
    by_cases hrule : rule = .blank
    · -- the newline may go with the white space before it
      subst hrule
      have hsplit := Rule.split?_of_first? hfirst
      rw [← Rule.append_of_split? hsplit, List.append_assoc,
        Reader.tokens_blanks (Rule.all_of_run? hsplit)]
      exact ih hend
    · exact (Reader.tokens_of_skip (Rule.first?_newline hrule hfirst ds) hskip).trans (ih hend)
  | @token r _ rule lexeme rest kind value ts hfirst htoken _ ih =>
    have hrule : rule ≠ .blank := by
      rintro rfl
      cases htoken
    exact Reader.tokens_of_token? (Rule.first?_newline hrule hfirst ds) htoken (ih hend)

/-- The tokens of a text that stands further on. -/
theorem tokens_later (h : Scans r ts ⟨[], p⟩) (bytes lines : Nat) :
    Reader.tokens ⟨r.rest, r.position.later bytes lines⟩ =
      .ok (ts.map (Token.later bytes lines) ++ [.eofAt (p.later bytes lines)]) := by
  generalize hend : (⟨[], p⟩ : Reader) = r' at h
  induction h with
  | done =>
    subst hend
    rw [Reader.tokens]
    rfl
  | skip hfirst hskip _ ih =>
    rw [Reader.tokens_of_skip hfirst hskip, Position.later_after]
    exact ih hend
  | @token r _ _ lexeme _ _ _ _ hfirst htoken _ ih =>
    have hlater := Reader.tokens_of_token? (p := r.position.later bytes lines) hfirst htoken
      (by rw [Position.later_after]; exact ih hend)
    rw [hlater, Position.later_after]
    rfl

/-- The end of a text that starts a file, counted. -/
theorem next_newline {source file : String} (h : Scans (.ofText source file) ts ⟨[], p⟩) :
    p.next '\n' =
      (Position.start file).later (source.utf8ByteSize + 1) (source.toList.count '\n' + 1) := by
  obtain ⟨read, hread, hp⟩ := h.exists_append
  obtain rfl : source.toList = read := by simpa [Reader.ofText] using hread
  have hbehind : p = Position.behind file source.toList := hp.trans (Position.after_start _ _)
  rw [hbehind, Position.next, if_pos rfl]
  simp [Position.behind, Position.later, Position.start, UInt32.ofNat_add, UInt32.add_assoc]
  decide

/-- Only the closing token closes a text. -/
theorem kind_ne_eof {r' : Reader} (h : Scans r ts r') : ∀ t ∈ ts, t.kind ≠ .eof := by
  intro t ht
  obtain ⟨_, rule, lexeme, _, -, -, -, hfirst, htoken⟩ := h.found t ht
  intro hkind
  rw [hkind] at htoken
  cases Rule.mem_of_first? hfirst using Rule.mem_cases with
  | word =>
    simp only [Rule.token?, Handler.token?] at htoken
    split at htoken <;> cases htoken
  | decimal | integer | blank | quoted | comment | mark => cases htoken

end Scans

/-! ## Counting tokens -/

/-- What a cursor counts is what its tokens count, and the closing one. -/
theorem Cursor.weight_eq (c : Cursor) : c.weight = (c.rest.map tokenWeight).sum + 1 := by
  unfold weight
  induction c.rest with
  | nil => rfl
  | cons t ts ih =>
    rw [List.foldr_cons, ih, List.map_cons, List.sum_cons]
    omega

/-- Each tree stands in a token of its own. -/
theorem Covers.length_le {f : List SpanTree} {ts : List Token} (h : Covers f ts) :
    f.length ≤ ts.length := by
  induction h with
  | nil => exact Nat.zero_le _
  | skip _ ih => exact Nat.le_succ_of_le ih
  | tree hstart _ _ _ _ ih =>
    have hpos := List.length_pos_iff.mpr hstart.ne_nil
    rw [List.length_cons, List.length_append]
    omega

namespace Cuts

variable {ts us : List Token}

/-- A token that may be cut counts twice. -/
theorem length_le (h : Cuts ts us) : us.length ≤ (ts.map Cursor.tokenWeight).sum := by
  induction h with
  | nil => exact Nat.le_refl _
  | @keep t _ _ _ ih =>
    have hpos : 1 ≤ Cursor.tokenWeight t := by
      unfold Cursor.tokenWeight
      split_ifs <;> omega
    rw [List.length_cons, List.map_cons, List.sum_cons]
    omega
  | cut ht _ ih =>
    rw [List.length_cons, List.length_cons, List.map_cons, List.sum_cons, Cursor.tokenWeight,
      if_pos ht]
    omega

theorem kind_ne_eof (h : Cuts ts us) (hts : ∀ t ∈ ts, t.kind ≠ .eof) : ∀ u ∈ us, u.kind ≠ .eof := by
  induction h with
  | nil => exact hts
  | keep _ ih =>
    obtain ⟨ht, hts⟩ := List.forall_mem_cons.mp hts
    exact List.forall_mem_cons.mpr ⟨ht, ih hts⟩
  | cut _ _ ih =>
    obtain ⟨-, hts⟩ := List.forall_mem_cons.mp hts
    have hgreater : TokenKind.mark .greater ≠ .eof := by decide
    exact List.forall_mem_cons.mpr ⟨hgreater, List.forall_mem_cons.mpr ⟨hgreater, ih hts⟩⟩

end Cuts

/-! ## Programs -/

namespace Parser

variable {α : Type} {p : Parser α}

theorem kind_of_untilEnd {n : Nat} {c c' : Cursor} {as : List α} (h : untilEnd p n c = .ok as c') :
    c'.kind = .eof := by
  induction n generalizing c as with
  | zero => cases h
  | succ n ih =>
    rcases untilEnd_ok h with ⟨hkind, -, rfl⟩ | ⟨-, _, _, _, -, -, has⟩
    · exact hkind
    · exact ih has

end Parser

namespace Parse

open Quill.Parser

/-- An `else` starts no statement. -/
theorem kind_ne_else {n : Nat} {c c' : Cursor} {s : Stmt} (h : stmt .standard n c = .ok s c') :
    c.kind ≠ .word .elseWord := by
  intro hkind
  obtain ⟨e, rest, last⟩ := c
  cases rest with
  | nil => cases hkind
  | cons t ts =>
    obtain ⟨kind, value, span⟩ := t
    obtain rfl : kind = .word .elseWord := hkind
    rcases n with _ | _ | n
    · cases h
    · cases h
    · cases h

/-- Statements up to the end take a token each. -/
theorem length_le_of_untilEnd {n : Nat} {c c' : Cursor} {as : List Stmt}
    (h : untilEnd (stmt .standard n) n c = .ok as c') :
    as.length ≤ (c.rest.map Cursor.tokenWeight).sum := by
  obtain ⟨us, hpasses, hcovers⟩ := past_untilEnd (past_stmt n) n _ (.refl c) rfl h
  have htrees := hcovers.length_le
  have htokens := hpasses.cuts.length_le
  rw [List.length_map] at htrees
  rw [List.length_append] at htokens
  omega

/-- Statements up to the end of a text leave nothing of it. -/
theorem rest_eq_nil_of_untilEnd {n : Nat} {c c' : Cursor} {as : List Stmt}
    (h : untilEnd (stmt .standard n) n c = .ok as c') (hc : ∀ t ∈ c.rest, t.kind ≠ .eof) :
    c'.rest = [] := by
  obtain ⟨us, hpasses, -⟩ := past_untilEnd (past_stmt n) n _ (.refl c) rfl h
  have hend := kind_of_untilEnd h
  have hleft := (List.forall_mem_append.mp (hpasses.cuts.kind_ne_eof hc)).2
  cases hrest : c'.rest with
  | nil => rfl
  | cons t ts =>
    rw [Cursor.kind, Cursor.current, hrest] at hend
    rw [hrest] at hleft
    exact absurd hend (hleft t List.mem_cons_self)

/-- What is read up to the end does not start with an `else`. -/
theorem kind_ne_else_of_untilEnd {n : Nat} {c c' : Cursor} {as : List Stmt}
    (h : untilEnd (stmt .standard n) n c = .ok as c') : c.kind ≠ .word .elseWord := by
  cases n with
  | zero => cases h
  | succ n =>
    rcases untilEnd_ok h with ⟨hkind, -⟩ | ⟨-, _, _, _, -, hstmt, -⟩
    · rw [hkind]
      decide
    · exact kind_ne_else hstmt

/-- Statements up to the end of one list of tokens, and then those of another: the second are read
the same on tokens that are alike, behind those of the first. -/
theorem untilEnd_stmt_append {R : Correspondence} {c c' d d' : Cursor} {as bs : List Stmt}
    {e : Position} {more : List Token} {last : EndToken} (hc : ∀ t ∈ c.rest, t.kind ≠ .eof)
    (hd : d.Alike R ⟨e, more, last⟩)
    (has : untilEnd (stmt .standard c.budget) c.budget c = .ok as c')
    (hbs : untilEnd (stmt .standard d.budget) d.budget d = .ok bs d') :
    ∃ moved end', untilEnd (stmt .standard (c.before more last).budget) (c.before more last).budget
        (c.before more last) = .ok (as ++ moved) end' ∧ List.Forall₂ (Stmt.Alike R) bs moved := by
  have hbudget : (c.before more last).budget = (c.rest.map Cursor.tokenWeight).sum + d.budget := by
    rw [hd.budget, Cursor.budget, Cursor.budget, Cursor.weight_eq, Cursor.weight_eq, Cursor.before,
      List.map_append, List.sum_append, Nat.add_assoc, Nat.add_assoc]
  have hcount := length_le_of_untilEnd has
  have hle : c.budget ≤ (c.before more last).budget := by
    rw [hbudget, Cursor.budget, Cursor.weight_eq, Cursor.budget, Cursor.weight_eq]
    omega
  generalize (c.before more last).budget = n at hbudget hle ⊢
  obtain ⟨k, rfl⟩ : ∃ k, n = as.length + k := ⟨n - as.length, by omega⟩
  -- the budgets are enough, and so they do not matter
  have hc' : c.weight < c.budget := Nat.lt_succ_self _
  have hd' : d.weight < d.budget := Nat.lt_succ_self _
  have hfirst : untilEnd (stmt .standard (as.length + k)) c.budget c = .ok as c' :=
    ((descends_stmts (c := .twice c) hle le_rfl hc' hc'.le hc'.le).same
      Stmt.all_eq_of_alike).trans has
  -- the second list, as it is found behind the first
  have hsecond : Descends ⟨d, ⟨e, more, last⟩, hd⟩ 0 (List.Forall₂ (Stmt.Alike R))
      (untilEnd (stmt .standard d.budget) d.budget) (untilEnd (stmt .standard (as.length + k)) k) :=
    descends_stmts le_rfl (by omega) hd' hd'.le (hd'.le.trans (by omega))
  obtain ⟨moved, _, hmoved, hmoves, -⟩ := hsecond.beside hbs
  obtain ⟨end', hfresh⟩ := untilEnd_fresh (fresh_stmt .standard _) c'.previousEnd hmoved
  have hbehind : c'.before more last = (Cursor.mk e more last).behindEnd c'.previousEnd := by
    rw [Cursor.before, rest_eq_nil_of_untilEnd has hc]
    rfl
  rw [← hbehind] at hfresh
  have helse : (more.headD last.token).kind ≠ .word .elseWord :=
    hd.kind.symm.trans_ne (kind_ne_else_of_untilEnd hbs)
  have hstmt : CompletesUnder .same c.budget (Stmt.Alike .same) (stmt .standard (as.length + k))
      (stmt .standard (as.length + k)) := fun _ he => completes_stmt (by omega) (by omega)
  exact ⟨moved, end', untilEnd_append hstmt helse hc' hfirst hfresh, hmoves⟩

end Parse

/-- The cursor before the tokens of a text that ends at `p`. -/
def Cursor.ofScan (ts : List Token) (p : Position) (file : String) : Cursor :=
  ⟨.start file, ts, ⟨"EOF", ⟨p, p⟩⟩⟩

/-- The tokens of a text are alike to those of the same text further on. -/
theorem Cursor.alike_ofScan {bytes lines : Nat} (ts : List Token) (p : Position) (file : String) :
    (Cursor.ofScan ts p file).Alike (.later bytes lines)
      ⟨(Position.start file).later bytes lines, ts.map (Token.later bytes lines),
        ⟨"EOF", ⟨p.later bytes lines, p.later bytes lines⟩⟩⟩ :=
  ⟨rfl, Token.alike_map_later fun _ _ => Token.alike_later rfl rfl fun _ => ⟨rfl, rfl⟩, rfl,
    ⟨rfl, rfl⟩⟩

/-- The places of a text that is short enough are alike to the same places further on, as
numbers. -/
theorem Scans.exactlyLater_ofScan {source file : String} {ts : List Token} {p : Position}
    (h : Scans (.ofText source file) ts ⟨[], p⟩) (bytes lines : Nat)
    (hbytes : utf8Len source.toList + bytes < 2 ^ 32)
    (hlines : 1 + source.toList.count '\n' + lines < 2 ^ 32) :
    (Cursor.ofScan ts p file).Alike (.exactlyLater bytes lines)
      ⟨(Position.start file).later bytes lines, ts.map (Token.later bytes lines),
        ⟨"EOF", ⟨p.later bytes lines, p.later bytes lines⟩⟩⟩ := by
  have hstart : (Position.start file).StandsIn source.toList file := ⟨[], source.toList, rfl, rfl⟩
  have hend : p.StandsIn source.toList file := by
    obtain ⟨before, htext, hp⟩ := h.position_eq
    exact ⟨before, [], htext, hp⟩
  have hlast := hend.later hbytes hlines
  refine ⟨hstart.later hbytes hlines, Token.alike_map_later fun t ht => ?_, rfl, ⟨hlast, hlast⟩⟩
  obtain ⟨hfirst, hstop⟩ := h.places ht
  refine Token.alike_later (hfirst.standsIn.later hbytes hlines) (hstop.later hbytes hlines) ?_
  intro hkind
  have hmiddle := (h.middle ht hkind).standsIn.later hbytes hlines
  exact ⟨hmiddle, hmiddle⟩

/-- A text with a token in it has a character that is no newline. -/
theorem Scans.count_lt {source file : String} {ts : List Token} {r : Reader}
    (h : Scans (.ofText source file) ts r) (hne : ts ≠ []) :
    source.toList.count '\n' < utf8Len source.toList := by
  obtain ⟨t, ts, rfl⟩ := List.exists_cons_of_ne_nil hne
  obtain ⟨before, rule, lexeme, after, hrest, -, -, hfirst, htoken⟩ := h.found t List.mem_cons_self
  have hrule := Rule.mem_of_first? hfirst
  have hsplit := Rule.split?_of_first? hfirst
  obtain ⟨c, lexeme, rfl⟩ := List.exists_cons_of_ne_nil (Rule.ne_nil_of_split? hrule hsplit)
  have hc : c ≠ '\n' := by
    rintro rfl
    cases Rule.stops_of_token? hrule hsplit htoken '\n' rfl
  have htext : source.toList = before ++ c :: (lexeme ++ after) := hrest
  have hlength := Position.length_le_utf8Len source.toList
  have hcount : ∀ cs : List Char, cs.count '\n' ≤ cs.length := fun cs => List.count_le_length
  have hbefore := hcount before
  have hafter := hcount (lexeme ++ after)
  rw [htext] at hlength ⊢
  rw [List.count_append, List.count_cons_of_ne hc]
  rw [List.length_append, List.length_cons] at hlength
  omega

theorem parseSource_ok {source file : String} {b : Block} (h : parseSource source file = .ok b) :
    ∃ ts p c', Scans (.ofText source file) ts ⟨[], p⟩ ∧
      Parser.untilEnd (Parse.stmt .standard (Cursor.ofScan ts p file).budget)
        (Cursor.ofScan ts p file).budget (.ofScan ts p file) = .ok b.body c' := by
  unfold parseSource at h
  cases htokens : tokenize source file with
  | error d =>
    rw [htokens] at h
    cases h
  | ok tokens =>
    obtain ⟨ts, p, hscans, rfl⟩ := Reader.scans_of_ok htokens
    rw [htokens] at h
    have hparse : parse (ts ++ [.eofAt p]) file = .ok b := h
    unfold parse at hparse
    rw [Cursor.ofTokens_append ts rfl] at hparse
    unfold Cursor.run at hparse
    split at hparse
    · rename_i b' c' hrun
      cases hparse
      obtain ⟨body, hbody, rfl⟩ := Parse.program_ok hrun
      exact ⟨ts, p, c', hscans, hbody⟩
    · cases hparse

theorem parseSource_of_untilEnd {source file : String} {ts : List Token} {p : Position}
    {c' : Cursor} {body : List Stmt} (htokens : tokenize source file = .ok (ts ++ [.eofAt p]))
    (h : Parser.untilEnd (Parse.stmt .standard (Cursor.ofScan ts p file).budget)
      (Cursor.ofScan ts p file).budget (.ofScan ts p file) = .ok body c') :
    ∃ b, parseSource source file = .ok b ∧ b.body = body := by
  have hrun : Parse.program .standard (Cursor.ofScan ts p file).budget (.ofScan ts p file) =
      .ok (.mk body ⟨(Cursor.ofScan ts p file).position, c'.position⟩) c' :=
    Parser.bind_ok.mpr ⟨_, _, rfl, Parser.bind_ok.mpr ⟨body, c', h, rfl⟩⟩
  have hcursor : Cursor.ofTokens (ts ++ [.eofAt p]) file = .ofScan ts p file :=
    Cursor.ofTokens_append ts rfl file
  refine ⟨.mk body ⟨(Cursor.ofScan ts p file).position, c'.position⟩, ?_, rfl⟩
  rw [parseSource, htokens, Except.bind, parse, hcursor, Cursor.run, hrun]

/-- The tokens of two texts with a newline between them. -/
theorem tokenize_newline {first second file : String} {ts us : List Token} {p q : Position}
    (hts : Scans (.ofText first file) ts ⟨[], p⟩) (hus : Scans (.ofText second file) us ⟨[], q⟩)
    {bytes lines : Nat} (hbytes : bytes = first.utf8ByteSize + 1)
    (hlines : lines = first.toList.count '\n' + 1) :
    tokenize (first ++ "\n" ++ second) file =
      .ok (ts ++ us.map (Token.later bytes lines) ++ [.eofAt (q.later bytes lines)]) := by
  have hlater := hus.tokens_later bytes lines
  have hstart : p.next '\n' = (Position.start file).later bytes lines := by
    rw [hts.next_newline, hbytes, hlines]
  have happend := hts.tokens_newline (hstart ▸ hlater)
  rw [← List.append_assoc] at happend
  have htext : Reader.ofText (first ++ "\n" ++ second) file =
      ⟨first.toList ++ '\n' :: second.toList, .start file⟩ := by simp [Reader.ofText]
  rw [tokenize, htext]
  exact happend

/-- **Texts one behind the other write their programs one behind the other.** Where two texts are
parsed, so is the text with a newline between them. Its statements are those of the first text, and
then those of the second, which stand as many bytes and lines further on as the first text and the
newline have: modulo `2 ^ 32`, and as numbers if the whole text has less than `2 ^ 32` bytes. -/
theorem parseSource_newline {first second file : String} {a b : Block}
    (ha : parseSource first file = .ok a) (hb : parseSource second file = .ok b) :
    ∃ c moved, parseSource (first ++ "\n" ++ second) file = .ok c ∧ c.body = a.body ++ moved ∧
      List.Forall₂ (Stmt.Alike (.later (first.utf8ByteSize + 1) (first.toList.count '\n' + 1)))
        b.body moved ∧
      ((first ++ "\n" ++ second).utf8ByteSize < 2 ^ 32 → List.Forall₂ (Stmt.Alike
        (.exactlyLater (first.utf8ByteSize + 1) (first.toList.count '\n' + 1))) b.body moved) := by
  obtain ⟨ts, p, c', hts, hfirst⟩ := parseSource_ok ha
  obtain ⟨us, q, d', hus, hsecond⟩ := parseSource_ok hb
  obtain ⟨moved, _, hboth, hmoved⟩ :=
    Parse.untilEnd_stmt_append hts.kind_ne_eof (Cursor.alike_ofScan us q file) hfirst hsecond
  obtain ⟨c, hc, hbody⟩ := parseSource_of_untilEnd (tokenize_newline hts hus rfl rfl) hboth
  refine ⟨c, moved, hc, hbody, hmoved, fun hsize => ?_⟩
  by_cases hnone : us = []
  · -- a text without tokens has no statements
    have hcount := Parse.length_le_of_untilEnd hsecond
    rw [hnone] at hcount
    have hnil : b.body = [] := List.length_eq_zero_iff.mp (Nat.le_zero.mp hcount)
    rw [hnil] at hmoved ⊢
    cases hmoved
    exact .nil
  · have hbytes : first.utf8ByteSize + 1 + second.utf8ByteSize < 2 ^ 32 := by
      rwa [String.utf8ByteSize_append, String.utf8ByteSize_append] at hsize
    have hbreaks : first.toList.count '\n' ≤ first.utf8ByteSize := by
      rw [← utf8Len_toList]
      exact List.count_le_length.trans (Position.length_le_utf8Len _)
    have hlines := hus.count_lt hnone
    rw [utf8Len_toList] at hlines
    have hexact := hus.exactlyLater_ofScan (first.utf8ByteSize + 1) (first.toList.count '\n' + 1)
      (by rw [utf8Len_toList]; omega) (by omega)
    obtain ⟨moved', _, hboth', hmoved'⟩ :=
      Parse.untilEnd_stmt_append hts.kind_ne_eof hexact hfirst hsecond
    -- the statements are the same ones
    have hsame : moved' = moved := by
      have hok := hboth'.symm.trans hboth
      injection hok with hlists
      exact List.append_cancel_left hlists
    exact hsame ▸ hmoved'

/-- A branch with a comment behind it, in which a character has two bytes, and a declaration. -/
theorem parseSource_newline_branch :
    ∃ a b, parseSource "if x { f(); }\n// é" "m" = .ok a ∧ parseSource " let y = 1;" "m" = .ok b ∧
      a.body.length = 1 ∧ b.body.length = 1 ∧ ∃ c moved,
      parseSource ("if x { f(); }\n// é" ++ "\n" ++ " let y = 1;") "m" = .ok c ∧
      c.body = a.body ++ moved ∧ List.Forall₂ (Stmt.Alike (.exactlyLater 20 2)) b.body moved := by
  have hbranch : (parseSource "if x { f(); }\n// é" "m").map (·.body.length) = .ok 1 := by
    decide +kernel
  have hdeclare : (parseSource " let y = 1;" "m").map (·.body.length) = .ok 1 := by
    decide +kernel
  obtain ⟨a, ha, hone⟩ := exists_of_map_eq_ok hbranch
  obtain ⟨b, hb, hone'⟩ := exists_of_map_eq_ok hdeclare
  obtain ⟨c, moved, hc, hbody, -, hexact⟩ := parseSource_newline ha hb
  exact ⟨a, b, ha, hb, hone, hone', c, moved, hc, hbody, hexact (by decide)⟩

/-- Behind `2 ^ 32 - 1` bytes of blanks and a newline no statement can stand as many bytes further
on. -/
theorem not_parseSource_newline : ∃ (first second : String) (a b : Block),
    parseSource first "m" = .ok a ∧ parseSource second "m" = .ok b ∧
      ∀ moved, ¬ List.Forall₂ (Stmt.Alike
        (.exactlyLater (first.utf8ByteSize + 1) (first.toList.count '\n' + 1))) b.body moved := by
  have hplace : (Position.start "m").after (Sample.blanks (2 ^ 31 - 2) (2 ^ 31)) =
      ⟨4294967295, 2, 2147483649, "m"⟩ := Sample.after_blanks _ _ _
  have hnothing : ((Reader.tokens ⟨[], ⟨4294967295, 2, 2147483649, "m"⟩⟩).bind
      fun tokens => parse tokens "m").map (·.body.length) = .ok 0 := by decide +kernel
  have hcall : (parseSource "f();" "m").map (·.body.length) = .ok 1 := by decide +kernel
  obtain ⟨a, ha, -⟩ := exists_of_map_eq_ok hnothing
  obtain ⟨b, hb, hone⟩ := exists_of_map_eq_ok hcall
  refine ⟨String.ofList (Sample.blanks (2 ^ 31 - 2) (2 ^ 31) ++ []), "f();", a, b, ?_, hb, ?_⟩
  · rw [parseSource, Sample.tokenize_blanks, hplace]
    exact ha
  · rw [String.utf8ByteSize_ofList, List.append_nil, Sample.utf8Len_blanks]
    intro moved hmoved
    obtain ⟨s, hs⟩ := List.length_eq_one_iff.mp hone
    rw [hs] at hmoved
    obtain ⟨t, -, halike, -⟩ := List.forall₂_cons_left_iff.mp hmoved
    obtain ⟨x, y, hspans⟩ := halike.exists_spans
    have hoffset := hspans.start.offset
    have hlt := y.start.offset.toNat_lt
    omega

end Quill
