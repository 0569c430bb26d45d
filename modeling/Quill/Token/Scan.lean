import Quill.Diagnostic.Basic
import Quill.Token.Basic
import Quill.Token.Reader
import Quill.Token.Rule

/-!
# Cutting a text into tokens

At each place the first rule that matches decides: its handler says by how many bytes to move on and
what token, if any, stands there. One token more marks the end. A character that no rule matches
ends the scan with a diagnostic.
-/

namespace Quill

namespace Reader

/-- The tokens of what is left to read, with the closing one. -/
def tokens (r : Reader) : Except Diagnostic (List Token) :=
  match r with
  | ⟨[], p⟩ => .ok [.eofAt p]
  | ⟨c :: cs, p⟩ =>
    match _h : Rule.first? (c :: cs) with
    | none => .error ⟨.unrecognised (String.singleton c), p⟩
    | some (rule, lexeme, _) =>
      let next := Reader.advance ⟨c :: cs, p⟩ (rule.handler.length lexeme)
      match tokens next with
      | .error d => .error d
      | .ok ts =>
        match rule.token? lexeme with
        | none => .ok ts
        | some (kind, value) => .ok (⟨kind, value, ⟨p, next.position⟩⟩ :: ts)
termination_by r.rest.length
decreasing_by exact length_advance_lt (Rule.length_pos_of_first? _h) c cs p

end Reader

/-- The tokens of a source text, the last of which marks its end. -/
def tokenize (source file : String) : Except Diagnostic (List Token) :=
  (Reader.ofText source file).tokens

end Quill
