import Quill.Text.Blank
import Quill.Token.Kind

/-!
# Lexical rules

What a token, or the stretch between two tokens, looks like. A rule is a row of a table: a pattern,
which splits a text into the part it matches and the rest (`Pattern.split?`), and a handler, which
says what token, if any, the match becomes (`Handler.token?`) and by how many bytes the scan moves
on (`Handler.length`). The handler of a mark does not look at the match: it has a text of its own,
and takes both from that. `Rule.all` is the table, in the order in which the rows are tried; a mark
stands before every mark it starts with.

Results:
* `Pattern.append_of_split?`: a pattern splits a text, it adds and drops nothing.
* `Rule.all_eq`: in each row the handler has the text of the pattern.
* `Rule.length_of_split?`: so the scan moves on by the match, and that is not empty.
-/

namespace Quill

/-- The forms that a text can begin with. -/
inductive Pattern where
  /-- A letter or underscore, then letters, digits and underscores. -/
  | word
  /-- Digits, a point, digits, and an optional exponent. -/
  | decimal
  /-- Digits. -/
  | integer
  /-- White space. -/
  | blank
  /-- Text between double quotes on one line, where a backslash takes the next character along. -/
  | quoted
  /-- Two slashes and the rest of the line. -/
  | comment
  /-- The characters of a text. -/
  | literal (text : String)
deriving DecidableEq, Repr

/-- What a match becomes. -/
inductive Handler where
  /-- A reserved word if it is spelled like one, and a name otherwise. -/
  | word
  /-- A number with a fraction. -/
  | decimal
  /-- A number without one. -/
  | integer
  /-- A string, which is what the text between the quotes denotes. -/
  | quoted
  /-- No token. -/
  | skip
  /-- A mark that is written as the text, whatever has matched. -/
  | fixed (m : Mark) (text : String)
deriving DecidableEq, Repr

/-- A row of the table: what to look for, and what to make of it. -/
structure Rule where
  pattern : Pattern
  handler : Handler
deriving DecidableEq, Repr

namespace Rule

/-- The characters a name may start with. -/
def isWordStart (c : Char) : Bool := c.isAlpha || c = '_'

/-- The characters a name may go on with. -/
def isWordPart (c : Char) : Bool := c.isAlphanum || c = '_'

/-- The longest beginning of a text whose characters are all in a class, if it is not empty. -/
def run? (p : Char → Bool) (cs : List Char) : Option (List Char × List Char) :=
  match cs.takeWhile p with
  | [] => none
  | c :: run => some (c :: run, cs.dropWhile p)

/-- The sign before an exponent, possibly empty. -/
def splitSign : List Char → List Char × List Char
  | [] => ([], [])
  | c :: cs => if c = '+' || c = '-' then ([c], cs) else ([], c :: cs)

/-- The exponent of a decimal, possibly empty: an `e`, an optional sign and digits. -/
def splitExponent : List Char → List Char × List Char
  | [] => ([], [])
  | c :: cs =>
    if c = 'e' || c = 'E' then
      match run? Char.isDigit (splitSign cs).2 with
      | some (run, rest) => (c :: (splitSign cs).1 ++ run, rest)
      | none => ([], c :: cs)
    else ([], c :: cs)

/-- Digits, a point, digits, and an optional exponent. -/
def splitDecimal? (cs : List Char) : Option (List Char × List Char) :=
  match run? Char.isDigit cs with
  | some (whole, '.' :: rest) =>
    match run? Char.isDigit rest with
    | some (fraction, rest) =>
      some (whole ++ '.' :: fraction ++ (splitExponent rest).1, (splitExponent rest).2)
    | none => none
  | _ => none

/-- The text up to and with the next double quote that no backslash stands before. A newline comes
before it in no quoted text. -/
def splitQuoted? : List Char → Option (List Char × List Char)
  | [] => none
  | '"' :: rest => some (['"'], rest)
  | '\n' :: _ => none
  | ['\\'] => none
  | '\\' :: '\n' :: _ => none
  | '\\' :: c :: rest => (splitQuoted? rest).map fun r => ('\\' :: c :: r.1, r.2)
  | c :: rest => (splitQuoted? rest).map fun r => (c :: r.1, r.2)

/-- The given spelling, if the text begins with it. -/
def splitSpelling? (spelling cs : List Char) : Option (List Char × List Char) :=
  if spelling.isPrefixOf cs then some (spelling, cs.drop spelling.length) else none

/-! ## Nothing is lost, and something is matched -/

theorem append_of_run? {p : Char → Bool} {cs run rest : List Char}
    (h : run? p cs = some (run, rest)) : run ++ rest = cs := by
  unfold run? at h
  split at h
  · cases h
  · next hw =>
    obtain ⟨rfl, rfl⟩ := Prod.mk.inj (Option.some.inj h)
    rw [← hw, List.takeWhile_append_dropWhile]

theorem ne_nil_of_run? {p : Char → Bool} {cs run rest : List Char}
    (h : run? p cs = some (run, rest)) : run ≠ [] := by
  unfold run? at h
  split at h
  · cases h
  · obtain ⟨rfl, -⟩ := Prod.mk.inj (Option.some.inj h)
    simp

theorem append_splitSign (cs : List Char) : (splitSign cs).1 ++ (splitSign cs).2 = cs := by
  unfold splitSign
  split
  · rfl
  · split <;> rfl

theorem append_splitExponent (cs : List Char) :
    (splitExponent cs).1 ++ (splitExponent cs).2 = cs := by
  unfold splitExponent
  split
  · rfl
  · next c cs =>
    split
    · split
      · next h => simp [append_of_run? h, append_splitSign]
      · rfl
    · rfl

theorem append_of_splitDecimal? {cs lexeme rest : List Char}
    (h : splitDecimal? cs = some (lexeme, rest)) : lexeme ++ rest = cs := by
  unfold splitDecimal? at h
  split at h
  · next hw =>
    split at h
    · next r _ _ hf =>
      obtain ⟨rfl, rfl⟩ := Prod.mk.inj (Option.some.inj h)
      rw [← append_of_run? hw, ← append_of_run? hf]
      simp [append_splitExponent]
    · cases h
  · cases h

theorem append_of_splitQuoted? {cs lexeme rest : List Char}
    (h : splitQuoted? cs = some (lexeme, rest)) : lexeme ++ rest = cs := by
  fun_induction splitQuoted? cs generalizing lexeme with
  | case1 | case3 | case4 | case5 => cases h
  | case2 r => obtain ⟨rfl, rfl⟩ := Prod.mk.inj (Option.some.inj h); rfl
  | case6 c r _ ih =>
    obtain ⟨⟨l, t⟩, hl, he⟩ := Option.map_eq_some_iff.1 h
    obtain ⟨rfl, rfl⟩ := Prod.mk.inj he
    simp [ih hl]
  | case7 c r _ _ _ _ _ ih =>
    obtain ⟨⟨l, t⟩, hl, he⟩ := Option.map_eq_some_iff.1 h
    obtain ⟨rfl, rfl⟩ := Prod.mk.inj he
    simp [ih hl]

theorem append_of_splitSpelling? {spelling cs lexeme rest : List Char}
    (h : splitSpelling? spelling cs = some (lexeme, rest)) : lexeme ++ rest = cs := by
  unfold splitSpelling? at h
  split at h
  · next hp =>
    obtain ⟨rfl, rfl⟩ := Prod.mk.inj (Option.some.inj h)
    obtain ⟨t, rfl⟩ := List.isPrefixOf_iff_prefix.1 hp
    simp
  · cases h

end Rule

/-! ## Patterns -/

namespace Pattern

open Rule

/-- The part of a text that a pattern matches at its start, and the rest. -/
def split? (pattern : Pattern) (cs : List Char) : Option (List Char × List Char) :=
  match pattern with
  | .word =>
    match cs with
    | c :: _ => if isWordStart c then run? isWordPart cs else none
    | [] => none
  | .decimal => splitDecimal? cs
  | .integer => run? Char.isDigit cs
  | .blank => run? Text.isBlank cs
  | .quoted =>
    match cs with
    | '"' :: rest => (splitQuoted? rest).map fun r => ('"' :: r.1, r.2)
    | _ => none
  | .comment =>
    match cs with
    | '/' :: '/' :: rest =>
      some ('/' :: '/' :: rest.takeWhile (· ≠ '\n'), rest.dropWhile (· ≠ '\n'))
    | _ => none
  | .literal text => splitSpelling? text.toList cs

/-- A pattern only splits a text. -/
theorem append_of_split? {pattern : Pattern} {cs lexeme rest : List Char}
    (h : pattern.split? cs = some (lexeme, rest)) : lexeme ++ rest = cs := by
  unfold split? at h
  split at h
  · split at h
    · split at h
      · exact append_of_run? h
      · cases h
    · cases h
  · exact append_of_splitDecimal? h
  · exact append_of_run? h
  · exact append_of_run? h
  · split at h
    · obtain ⟨⟨l, t⟩, hl, he⟩ := Option.map_eq_some_iff.1 h
      obtain ⟨rfl, rfl⟩ := Prod.mk.inj he
      simp [append_of_splitQuoted? hl]
    · cases h
  · split at h
    · obtain ⟨rfl, rfl⟩ := Prod.mk.inj (Option.some.inj h)
      simp [List.takeWhile_append_dropWhile]
    · cases h
  · exact append_of_splitSpelling? h

/-- A pattern matches at least one character, the empty text apart. -/
theorem ne_nil_of_split? {pattern : Pattern} {cs lexeme rest : List Char}
    (h : pattern.split? cs = some (lexeme, rest)) (hpattern : pattern ≠ .literal "") :
    lexeme ≠ [] := by
  unfold split? at h
  split at h
  · split at h
    · split at h
      · exact ne_nil_of_run? h
      · cases h
    · cases h
  · unfold splitDecimal? at h
    split at h
    · split at h
      · obtain ⟨rfl, -⟩ := Prod.mk.inj (Option.some.inj h)
        simp
      · cases h
    · cases h
  · exact ne_nil_of_run? h
  · exact ne_nil_of_run? h
  · split at h
    · obtain ⟨⟨l, t⟩, -, he⟩ := Option.map_eq_some_iff.1 h
      obtain ⟨rfl, -⟩ := Prod.mk.inj he
      simp
    · cases h
  · split at h
    · obtain ⟨rfl, -⟩ := Prod.mk.inj (Option.some.inj h)
      simp
    · cases h
  · next text =>
    unfold splitSpelling? at h
    split at h
    · obtain ⟨rfl, -⟩ := Prod.mk.inj (Option.some.inj h)
      exact fun hnil => hpattern (congrArg literal (String.toList_eq_nil_iff.mp hnil))
    · cases h

end Pattern

/-! ## Handlers -/

namespace Rule

/-- Whether the character is a hexadecimal digit. -/
def isHexDigit (c : Char) : Bool := c.isDigit || ('a' ≤ c && c ≤ 'f') || ('A' ≤ c && c ≤ 'F')

/-- The value of a hexadecimal digit. -/
def hexValue (c : Char) : Nat :=
  if c.isDigit then c.toNat - '0'.toNat
  else if 'a' ≤ c && c ≤ 'f' then c.toNat - 'a'.toNat + 10
  else c.toNat - 'A'.toNat + 10

/-- The text that the characters between two quotes denote: a backslash and a letter for a control
character, a backslash for itself and for a quote, `\x` and one or two hexadecimal digits for the
character with that number. Any other backslash is a character like the rest. -/
def unescape : List Char → List Char
  | [] => []
  | '\\' :: 'n' :: cs => '\n' :: unescape cs
  | '\\' :: 't' :: cs => '\t' :: unescape cs
  | '\\' :: 'r' :: cs => '\r' :: unescape cs
  | '\\' :: '\\' :: cs => '\\' :: unescape cs
  | '\\' :: '"' :: cs => '"' :: unescape cs
  | '\\' :: '0' :: cs => '\x00' :: unescape cs
  | '\\' :: 'x' :: a :: b :: cs =>
    if isHexDigit a then
      if isHexDigit b then Char.ofNat (16 * hexValue a + hexValue b) :: unescape cs
      else Char.ofNat (hexValue a) :: unescape (b :: cs)
    else '\\' :: 'x' :: unescape (a :: b :: cs)
  | ['\\', 'x', a] => if isHexDigit a then [Char.ofNat (hexValue a)] else ['\\', 'x', a]
  | c :: cs => c :: unescape cs

end Rule

namespace Handler

open Rule

/-- The kind and value of the token that a match becomes; none for white space and comments. -/
def token? (handler : Handler) (lexeme : List Char) : Option (TokenKind × String) :=
  let text := String.ofList lexeme
  match handler with
  | .word =>
    match Keyword.ofSpelling? text with
    | some k => some (.word k, text)
    | none => some (.identifier, text)
  | .decimal => some (.float, text)
  | .integer => some (.integer, text)
  | .quoted => some (.string, String.ofList (unescape lexeme.tail.dropLast))
  | .skip => none
  | .fixed m text => some (.mark m, text)

/-- By how many bytes the scan moves on. -/
def length (handler : Handler) (lexeme : List Char) : Nat :=
  match handler with
  | .fixed _ text => text.utf8ByteSize
  | _ => (String.ofList lexeme).utf8ByteSize

end Handler

/-! ## The table -/

namespace Rule

/-- Every rule, in the order in which they are tried. -/
def all : List Rule :=
  [⟨.word, .word⟩, ⟨.decimal, .decimal⟩, ⟨.integer, .integer⟩, ⟨.blank, .skip⟩,
   ⟨.quoted, .quoted⟩, ⟨.comment, .skip⟩,
   ⟨.literal "...", .fixed .ellipsis "..."⟩,
   ⟨.literal "..<", .fixed .dotDotLess "..<"⟩,
   ⟨.literal "**", .fixed .starStar "**"⟩,
   ⟨.literal "++", .fixed .plusPlus "++"⟩,
   ⟨.literal "--", .fixed .minusMinus "--"⟩,
   ⟨.literal "->", .fixed .arrow "->"⟩,
   ⟨.literal "<-", .fixed .leftArrow "<-"⟩,
   ⟨.literal "<<", .fixed .shiftLeft "<<"⟩,
   ⟨.literal ">>", .fixed .shiftRight ">>"⟩,
   ⟨.literal "<=", .fixed .lessEquals "<="⟩,
   ⟨.literal ">=", .fixed .greaterEquals ">="⟩,
   ⟨.literal "==", .fixed .equals "=="⟩,
   ⟨.literal "!=", .fixed .notEquals "!="⟩,
   ⟨.literal "&&", .fixed .and "&&"⟩,
   ⟨.literal "||", .fixed .or "||"⟩,
   ⟨.literal "??", .fixed .questionQuestion "??"⟩,
   ⟨.literal "?.", .fixed .questionDot "?."⟩,
   ⟨.literal "[", .fixed .openBracket "["⟩,
   ⟨.literal "]", .fixed .closeBracket "]"⟩,
   ⟨.literal "\x7b", .fixed .openCurly "\x7b"⟩,
   ⟨.literal "\x7d", .fixed .closeCurly "\x7d"⟩,
   ⟨.literal "(", .fixed .openParen "("⟩,
   ⟨.literal ")", .fixed .closeParen ")"⟩,
   ⟨.literal ";", .fixed .semicolon ";"⟩,
   ⟨.literal ":", .fixed .colon ":"⟩,
   ⟨.literal ",", .fixed .comma ","⟩,
   ⟨.literal ".", .fixed .dot "."⟩,
   ⟨.literal "?", .fixed .question "?"⟩,
   ⟨.literal "=", .fixed .assign "="⟩,
   ⟨.literal "!", .fixed .not "!"⟩,
   ⟨.literal "<", .fixed .less "<"⟩,
   ⟨.literal ">", .fixed .greater ">"⟩,
   ⟨.literal "|", .fixed .pipe "|"⟩,
   ⟨.literal "^", .fixed .caret "^"⟩,
   ⟨.literal "&", .fixed .ampersand "&"⟩,
   ⟨.literal "+", .fixed .plus "+"⟩,
   ⟨.literal "-", .fixed .dash "-"⟩,
   ⟨.literal "*", .fixed .star "*"⟩,
   ⟨.literal "/", .fixed .slash "/"⟩,
   ⟨.literal "%", .fixed .percent "%"⟩,
   ⟨.literal "#", .fixed .hash "#"⟩]

/-- The part of a text that a rule matches at its start, and the rest. -/
def split? (rule : Rule) (cs : List Char) : Option (List Char × List Char) := rule.pattern.split? cs

/-- The token that a match becomes. -/
def token? (rule : Rule) (lexeme : List Char) : Option (TokenKind × String) :=
  rule.handler.token? lexeme

/-- The first rule that matches the start of a text, with the split it makes. -/
def first? (cs : List Char) : Option (Rule × List Char × List Char) :=
  all.findSome? fun rule => (rule.split? cs).map fun r => (rule, r)

/-! ### Its rows -/

abbrev word : Rule := ⟨.word, .word⟩

abbrev decimal : Rule := ⟨.decimal, .decimal⟩

abbrev integer : Rule := ⟨.integer, .integer⟩

abbrev blank : Rule := ⟨.blank, .skip⟩

abbrev quoted : Rule := ⟨.quoted, .quoted⟩

abbrev comment : Rule := ⟨.comment, .skip⟩

/-- The row of a mark: what is looked for and what the token is are both its spelling. -/
abbrev mark (m : Mark) : Rule := ⟨.literal m.spelling, .fixed m m.spelling⟩

/-- The rules that are tried before those of the marks. -/
def forms : List Rule := [word, decimal, integer, blank, quoted, comment]

/-- The marks in the order in which their rules are tried. -/
def marks : List Mark := all.filterMap fun
  | ⟨_, .fixed m _⟩ => some m
  | _ => none

/-- **In each row of a mark the handler has the text that the pattern looks for**, and that is how
the mark is spelled. -/
theorem all_eq : all = forms ++ marks.map mark := rfl

theorem mark_mem_all (m : Mark) : mark m ∈ all := by
  cases m <;> decide

/-- A rule of the table is one of the six forms, or that of a mark. -/
@[elab_as_elim]
theorem mem_cases {motive : (rule : Rule) → rule ∈ all → Prop} (word : ∀ h, motive .word h)
    (decimal : ∀ h, motive .decimal h) (integer : ∀ h, motive .integer h)
    (blank : ∀ h, motive .blank h) (quoted : ∀ h, motive .quoted h)
    (comment : ∀ h, motive .comment h) (mark : ∀ m h, motive (.mark m) h) {rule : Rule}
    (h : rule ∈ all) : motive rule h := by
  have hrow : rule ∈ forms ++ marks.map Rule.mark := all_eq ▸ h
  rcases List.mem_append.mp hrow with hform | hmark
  · simp only [forms, List.mem_cons, List.not_mem_nil, or_false] at hform
    obtain rfl | rfl | rfl | rfl | rfl | rfl := hform
    · exact word h
    · exact decimal h
    · exact integer h
    · exact blank h
    · exact quoted h
    · exact comment h
  · obtain ⟨m, -, rfl⟩ := List.mem_map.mp hmark
    exact mark m h

/-! ### What a match is -/

theorem append_of_split? {rule : Rule} {cs lexeme rest : List Char}
    (h : rule.split? cs = some (lexeme, rest)) : lexeme ++ rest = cs :=
  Pattern.append_of_split? h

/-- No row looks for the empty text. -/
theorem pattern_ne_empty {rule : Rule} (hrule : rule ∈ all) : rule.pattern ≠ .literal "" := by
  have hall : ∀ rule ∈ all, rule.pattern ≠ .literal "" := by decide
  exact hall rule hrule

theorem ne_nil_of_split? {rule : Rule} {cs lexeme rest : List Char} (hrule : rule ∈ all)
    (h : rule.split? cs = some (lexeme, rest)) : lexeme ≠ [] :=
  Pattern.ne_nil_of_split? h (pattern_ne_empty hrule)

theorem eq_of_splitSpelling? {spelling cs lexeme rest : List Char}
    (h : splitSpelling? spelling cs = some (lexeme, rest)) : lexeme = spelling := by
  unfold splitSpelling? at h
  split at h
  · exact (Prod.mk.inj (Option.some.inj h)).1.symm
  · cases h

/-- The scan moves on by the bytes of the match. -/
theorem length_of_split? {rule : Rule} {cs lexeme rest : List Char} (hrule : rule ∈ all)
    (h : rule.split? cs = some (lexeme, rest)) :
    rule.handler.length lexeme = (String.ofList lexeme).utf8ByteSize := by
  cases hrule using mem_cases with
  | mark m =>
    rw [eq_of_splitSpelling? h, String.ofList_toList]
    rfl
  | word | decimal | integer | blank | quoted | comment => rfl

theorem mem_of_first? {rule : Rule} {cs lexeme rest : List Char}
    (h : first? cs = some (rule, lexeme, rest)) : rule ∈ all := by
  obtain ⟨r, hr, hsplit⟩ := List.exists_of_findSome?_eq_some h
  obtain ⟨s, -, heq⟩ := Option.map_eq_some_iff.1 hsplit
  obtain ⟨rfl, -⟩ := Prod.mk.inj heq
  exact hr

theorem split?_of_first? {rule : Rule} {cs lexeme rest : List Char}
    (h : first? cs = some (rule, lexeme, rest)) : rule.split? cs = some (lexeme, rest) := by
  obtain ⟨r, -, hr⟩ := List.exists_of_findSome?_eq_some h
  obtain ⟨s, hs, heq⟩ := Option.map_eq_some_iff.1 hr
  obtain ⟨rfl, rfl⟩ := Prod.mk.inj heq
  exact hs

/-- The scan moves on. -/
theorem length_pos_of_first? {rule : Rule} {cs lexeme rest : List Char}
    (h : first? cs = some (rule, lexeme, rest)) : 0 < rule.handler.length lexeme := by
  have hrule := mem_of_first? h
  have hsplit := split?_of_first? h
  have hne : lexeme ≠ [] := ne_nil_of_split? hrule hsplit
  rw [length_of_split? hrule hsplit, Nat.pos_iff_ne_zero]
  exact fun hzero => hne (by simpa using hzero)

end Rule

end Quill
