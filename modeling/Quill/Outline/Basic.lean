import Quill.Number.Written
import Quill.Text.Quoted

/-!
# Outlines

A tree written over many lines: every node opens on one line, has each of its parts on lines of its
own, four columns further in and closed by a comma, and closes at the column where it began.
-/

namespace Quill

/-- What is written: a word, a part under its label, or parts between an opening and a closing. -/
inductive Outline where
  | leaf (text : String)
  | labelled (label : String) (value : Outline)
  | node (opening : String) (parts : List Outline) (closing : String)
deriving Inhabited, Repr

namespace Outline

/-- The blanks in front of a line at the given depth. -/
def indentation (depth : Nat) : String := String.ofList (List.replicate (4 * depth) ' ')

mutual

/-- The pieces of an outline whose first line stands at the given depth, before those that follow
it. -/
def pieces (depth : Nat) (following : List String) : Outline → List String
  | .leaf text => text :: following
  | .labelled label value => label :: ": " :: value.pieces depth following
  | .node opening parts closing =>
    opening :: "\n" :: partPieces (depth + 1) (indentation depth :: closing :: following) parts

/-- The pieces of the parts of a node, at the depth of the parts, before those that follow them. -/
def partPieces (depth : Nat) (following : List String) : List Outline → List String
  | [] => following
  | part :: parts =>
    indentation depth :: part.pieces depth (",\n" :: partPieces depth following parts)

end

/-- The text of an outline. -/
def render (o : Outline) : String := String.join (o.pieces 0 [])

/-- Items between brackets. -/
def list : List Outline → Outline
  | [] => .leaf "[]"
  | items => .node "[" items "]"

/-- A name and what is written between parentheses behind it. -/
def wrapped (name : String) (value : Outline) : Outline := .node (name ++ "(") [value] ")"

/-- A name and its labelled parts between braces. -/
def record (name : String) (parts : List Outline) : Outline := .node (name ++ " \x7b") parts "\x7d"

/-- A part that may be missing. -/
def option : Option Outline → Outline
  | none => .leaf "None"
  | some value => wrapped "Some" value

/-- A text in quotes. -/
def string (s : String) : Outline := .leaf (Text.quote s)

/-- A truth value. -/
def bool (b : Bool) : Outline := .leaf (if b then "true" else "false")

/-- A number without a sign. -/
def nat (n : Nat) : Outline := .leaf (toString n)

/-- An integer. -/
def int (n : Int64) : Outline := .leaf (toString n.toInt)

/-- A float. -/
def float (x : Float) : Outline := .leaf (Number.write x)

end Outline

end Quill
