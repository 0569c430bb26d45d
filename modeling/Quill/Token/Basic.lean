import Quill.Position
import Quill.Token.Kind

/-!
# Tokens
-/

namespace Quill

/-- A piece of a source text: its kind, its value and where it stands. The value of a string token
is the text it denotes, without quotes and escapes; that of any other token is its spelling. -/
structure Token where
  kind : TokenKind
  value : String
  span : Span
deriving DecidableEq, Repr, Inhabited

namespace Token

/-- The token that closes a text which ends at `p`. -/
def eofAt (p : Position) : Token := ⟨.eof, "EOF", ⟨p, p⟩⟩

/-- A one-line description: the kind, and the value where the kind does not tell it. -/
def describe (t : Token) : String :=
  match t.kind with
  | .string | .identifier | .integer | .float => t.kind.name ++ " (" ++ t.value ++ ")"
  | kind => kind.name

end Token

end Quill
