import Quill.Diagnostic.Basic
import Quill.Token.Basic

/-!
# Walking over tokens

A `Cursor` stands before a token of a list that ends with a closing token, and remembers where the
token behind it ended. A `Parser` reads from a cursor and moves it on; when it fails, the cursor
stays where the fault was found.

Parsers that call themselves carry a budget for the depth of their calls. Running out of it is a
failure of its own, `Failure.exhausted`, apart from every fault of the text; the entry points give
each cursor a budget that it cannot use up.
-/

namespace Quill

/-- The token that closes a list: like any other, but its kind is settled. -/
structure EndToken where
  value : String
  span : Span
deriving DecidableEq, Repr, Inhabited

/-- The closing token as a token. -/
def EndToken.token (t : EndToken) : Token := ⟨.eof, t.value, t.span⟩

/-- A place in a list of tokens: the tokens from there on up to the closing one, that one, and the
end of the token before. -/
structure Cursor where
  previousEnd : Position
  rest : List Token
  last : EndToken
deriving DecidableEq, Repr, Inhabited

namespace Cursor

/-- Splits a list into its tokens and the closing one. A list that does not end with one is closed
where its last token ends. -/
def close (file : String) : List Token → List Token × EndToken
  | [] => ([], ⟨"EOF", ⟨.start file, .start file⟩⟩)
  | [t] =>
    if t.kind = .eof then ([], ⟨t.value, t.span⟩)
    else ([t], ⟨"EOF", ⟨t.span.stop, t.span.stop⟩⟩)
  | t :: u :: ts => let r := close file (u :: ts); (t :: r.1, r.2)

/-- The cursor before the first of the given tokens. -/
def ofTokens (tokens : List Token) (file : String) : Cursor :=
  let r := close file tokens
  ⟨.start file, r.1, r.2⟩

/-- The token that the cursor stands before. -/
def current (c : Cursor) : Token := c.rest.headD c.last.token

/-- The kind of that token. -/
def kind (c : Cursor) : TokenKind := c.current.kind

/-- Where that token starts. -/
def position (c : Cursor) : Position := c.current.span.start

/-- Whether the cursor stands before a token other than a closing one. -/
def hasTokens (c : Cursor) : Bool := c.kind ≠ .eof

/-- The cursor behind the current token; the closing token is never passed. -/
def advance (c : Cursor) : Cursor :=
  match c.rest with
  | [] => c
  | t :: ts => ⟨t.span.stop, ts, c.last⟩

/-- Cuts a current `>>` into two tokens `>`, so that each can close a list of alternatives. -/
def splitShift (c : Cursor) : Cursor :=
  match c.rest with
  | ⟨.mark .shiftRight, _, ⟨start, stop⟩⟩ :: ts =>
    let middle := start.succ
    { c with rest := ⟨.mark .greater, ">", ⟨start, middle⟩⟩
        :: ⟨.mark .greater, ">", ⟨middle, stop⟩⟩ :: ts }
  | _ => c

/-- The span from `start` to the end of the token before the cursor. -/
def spanFrom (c : Cursor) (start : Position) : Span := ⟨start, c.previousEnd⟩

/-- How much a token counts: `>>` twice, since it may be cut in two. -/
def tokenWeight (t : Token) : Nat := if t.kind = .mark .shiftRight then 2 else 1

/-- The number of tokens from the cursor on, the closing one included, with each `>>` counted
twice. -/
def weight (c : Cursor) : Nat := c.rest.foldr (fun token n => tokenWeight token + n) 1

/-- The fault that the current token cannot stand here. -/
def unexpected (c : Cursor) : Diagnostic := ⟨.unexpected c.current.value, c.position⟩

/-- The same, saying what was wanted instead. -/
def unexpectedHere (c : Cursor) (message : String) : Diagnostic :=
  ⟨.unexpectedHere c.current.value message, c.position⟩

end Cursor

/-- Why a parser stops without a result. -/
inductive Failure where
  /-- The tokens are at fault. -/
  | fault (d : Diagnostic)
  /-- The budget of calls is used up. -/
  | exhausted
deriving DecidableEq, Repr

/-- A parser reads from a cursor and moves it on, or fails and leaves it where it failed. -/
abbrev Parser := EStateM Failure Cursor

namespace Parser

/-- The current token. -/
def peek : Parser Token := do return (← get).current

/-- The kind of the current token. -/
def peekKind : Parser TokenKind := do return (← get).kind

/-- Passes the current token and returns it. -/
def advance : Parser Token := do
  let c ← get
  set c.advance
  return c.current

/-- Fails with the given fault. -/
def fail {α : Type} (d : Diagnostic) : Parser α := throw (.fault d)

/-- Fails because the current token cannot stand here. -/
def unexpected {α : Type} : Parser α := do fail (← get).unexpected

/-- Fails because the current token cannot stand here, saying what was wanted. -/
def unexpectedHere {α : Type} (message : String) : Parser α := do
  fail ((← get).unexpectedHere message)

/-- Passes a token of the given kind; any other is unexpected. -/
def expect (kind : TokenKind) : Parser Token := do
  if (← peekKind) = kind then advance else unexpected

/-- Passes a token of the given kind, or says what was wanted. -/
def expectOr (kind : TokenKind) (message : String) : Parser Token := do
  if (← peekKind) = kind then advance else unexpectedHere message

/-- Passes a token of the given kind if that is the current one, and says whether it did. -/
def accept (kind : TokenKind) : Parser Bool := do
  if (← peekKind) = kind then
    let _ ← advance
    return true
  else return false

/-- Cuts a current `>>` in two. -/
def splitShift : Parser Unit := modify Cursor.splitShift

/-- The span from `start` to the end of the last token passed. -/
def spanFrom (start : Position) : Parser Span := do return (← get).spanFrom start

end Parser

end Quill
