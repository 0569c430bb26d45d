import Quill.Parse.Cursor

/-!
# Parsing lists

The four ways in which the language writes several things in a row. A loop is its round with the
rest of the loop as a parameter (`Round`), tied to itself; each round uses one unit of the budget.
-/

namespace Quill.Parser

variable {α : Type}

namespace Round

/-- An item, and after a comma the others. -/
def separated (item : Parser α) (others : Parser (List α)) : Parser (List α) := do
  let x ← item
  if ← accept (.mark .comma) then return x :: (← others) else return [x]

/-- The same, unless the list is closed. -/
def closed (close : TokenKind) (item : Parser α) (others : Parser (List α)) :
    Parser (List α) := do
  if (← peekKind) = close then return [] else separated item others

/-- An item, perhaps a comma, and the others, unless the list is closed. -/
def commaOptional (close : TokenKind) (item : Parser α) (others : Parser (List α)) :
    Parser (List α) := do
  if (← peekKind) = close then return []
  else
    let x ← item
    let _ ← accept (.mark .comma)
    return x :: (← others)

/-- An item and the others, unless the tokens are at their end. -/
def untilEnd (item : Parser α) (others : Parser (List α)) : Parser (List α) := do
  if (← get).hasTokens then
    let x ← item
    return x :: (← others)
  else return []

end Round

/-- One or more items with commas between them. -/
def commaSeparated (item : Parser α) : Nat → Parser (List α)
  | 0 => throw .exhausted
  | n + 1 => Round.separated item (commaSeparated item n)

/-- Items with commas between them, up to the token `close`; a comma may stand before that. -/
def commaClosed (close : TokenKind) (item : Parser α) : Nat → Parser (List α)
  | 0 => throw .exhausted
  | n + 1 => Round.closed close item (commaClosed close item n)

/-- Items up to the token `close`, each with or without a comma behind it. -/
def commaOptional (close : TokenKind) (item : Parser α) : Nat → Parser (List α)
  | 0 => throw .exhausted
  | n + 1 => Round.commaOptional close item (commaOptional close item n)

/-- Items up to the end of the tokens. -/
def untilEnd (item : Parser α) : Nat → Parser (List α)
  | 0 => throw .exhausted
  | n + 1 => Round.untilEnd item (untilEnd item n)

end Quill.Parser
