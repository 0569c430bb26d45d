import Mathlib
import Quill.Token.Basic

/-!
# Terminals

A `Terminal` is what a token says: which mark or word it is, or the text of a name or a literal.
Where the token stands is left out, and so is what the kind settles. The token that closes a text
says nothing.
-/

namespace Quill

/-- A mark, a reserved word, or a name or a literal with its text. The text of a string is the one
that it denotes. -/
inductive Terminal where
  | mark (m : Mark)
  | word (k : Keyword)
  | name (text : String)
  | integer (text : String)
  | float (text : String)
  | string (text : String)
deriving DecidableEq, Repr

namespace Terminal

/-- The kind of the tokens that say this. -/
def kind : Terminal → TokenKind
  | .mark m => .mark m
  | .word k => .word k
  | .name _ => .identifier
  | .integer _ => .integer
  | .float _ => .float
  | .string _ => .string

/-- The value of the tokens that say this. -/
def value : Terminal → String
  | .mark m => m.spelling
  | .word k => k.spelling
  | .name text | .integer text | .float text | .string text => text

/-- Whether there are several terminals of the kind, which differ by their text. -/
def isText : Terminal → Bool
  | .mark _ | .word _ => false
  | .name _ | .integer _ | .float _ | .string _ => true

end Terminal

/-- What the token says. -/
def Token.terminal? (t : Token) : Option Terminal :=
  match t.kind with
  | .eof => none
  | .integer => some (.integer t.value)
  | .float => some (.float t.value)
  | .string => some (.string t.value)
  | .identifier => some (.name t.value)
  | .mark m => some (.mark m)
  | .word k => some (.word k)

/-- A token that says the terminal, and stands nowhere. -/
def Terminal.token (x : Terminal) : Token := ⟨x.kind, x.value, .nowhere⟩

/-- What the tokens say, up to the one that closes the text. -/
def terminals (tokens : List Token) : List Terminal :=
  (tokens.takeWhile (·.kind ≠ .eof)).filterMap Token.terminal?

/-! ## What one token says -/

namespace Token

variable {t : Token} {x : Terminal}

theorem kind_of_terminal? (h : t.terminal? = some x) : t.kind = x.kind := by
  unfold terminal? at h
  split at h <;> cases h <;> assumption

theorem kind_ne_eof (h : t.terminal? = some x) : t.kind ≠ .eof := by
  intro ht
  simp [terminal?, ht] at h

theorem kind_of_terminal?_none (h : t.terminal? = none) : t.kind = .eof := by
  unfold terminal? at h
  split at h
  · assumption
  all_goals cases h

/-- The text of a name or a literal is the value of its token. -/
theorem value_of_terminal? (h : t.terminal? = some x) (hx : x.isText = true) :
    t.value = x.value := by
  unfold terminal? at h
  split at h <;> cases h
  case h_6 => cases hx
  case h_7 => cases hx
  all_goals rfl

theorem terminal?_token (x : Terminal) : x.token.terminal? = some x := by
  cases x <;> rfl

theorem terminal?_mark {m : Mark} (h : t.kind = .mark m) : t.terminal? = some (.mark m) := by
  simp [terminal?, h]

theorem terminal?_word {k : Keyword} (h : t.kind = .word k) : t.terminal? = some (.word k) := by
  simp [terminal?, h]

theorem terminal?_name (h : t.kind = .identifier) : t.terminal? = some (.name t.value) := by
  simp [terminal?, h]

end Token

theorem terminals_cons {t : Token} {x : Terminal} (hx : t.terminal? = some x) (ts : List Token) :
    terminals (t :: ts) = x :: terminals ts := by
  simp [terminals, Token.kind_ne_eof hx, hx]

theorem terminals_cons_eof {t : Token} (ht : t.kind = .eof) (ts : List Token) :
    terminals (t :: ts) = [] := by
  simp [terminals, ht]

theorem terminals_map_token (xs : List Terminal) : terminals (xs.map Terminal.token) = xs := by
  induction xs with
  | nil => rfl
  | cons x xs ih => rw [List.map_cons, terminals_cons (Token.terminal?_token x), ih]

end Quill
