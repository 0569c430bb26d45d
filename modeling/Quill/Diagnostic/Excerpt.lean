import Quill.Diagnostic.Basic
import Quill.Text.Blank

/-!
# Diagnostics with an excerpt of the source

A diagnostic is shown with the line it points at and a caret below the column:

    Error: UndeclaredIdentifier (identifier `y` is not declared)
    -> main.q
      |
    2 | print(y);
      | ------^

The line is shown without the spaces and tabs it starts with and without the white space it ends
with; the caret moves left by what was cut at the start.

Out of scope: a limit on the width of a padded field, such as 65535 characters. Here the field that
a caret ends is as wide as its column asks for.
-/

namespace Quill

namespace Excerpt

/-- The lines of a text, each with the newline that ends it. A text that ends in a newline has no
empty line behind it. -/
def lines : List Char → List (List Char)
  | [] => []
  | c :: cs =>
    if c = '\n' then ['\n'] :: lines cs
    else
      match lines cs with
      | [] => [[c]]
      | l :: ls => (c :: l) :: ls

/-- The line of `source` that `p` lies on, newline included. -/
def lineAt? (source : String) (p : Position) : Option (List Char) :=
  match p.line.toNat with
  | 0 => none
  | n + 1 => (lines source.toList)[n]?

/-- How many characters of its line stand before `p`. -/
def charsBefore (p : Position) : Nat := p.column.toNat - 1

/-- The blanks that a shown line loses at its start. -/
def isIndent (c : Char) : Bool := c = ' ' || c = '\t'

/-- How many of them there are. -/
def indentWidth (line : List Char) : Nat := (line.takeWhile isIndent).length

/-- The line as it is shown. -/
def shown (line : List Char) : List Char := Text.trimEnd (line.dropWhile isIndent)

/-- `text` moved to the right end of a field of the given width. -/
def padLeft (fill : Char) (width : Nat) (text : List Char) : List Char :=
  List.replicate (width - text.length) fill ++ text

end Excerpt

namespace Diagnostic

/-- The headline of a shown diagnostic: its name, what it says, and the tip if there is one. -/
def headline (d : Diagnostic) : String :=
  let tip := match d.cause.tip with
    | some tip => ", " ++ tip
    | none => ""
  "Error: " ++ d.cause.name ++ " (" ++ d.cause.message ++ tip ++ ")\n"

open Excerpt in
/-- The width of the field that the caret ends: up to its column in the shown line. -/
def caretWidth (d : Diagnostic) (line : List Char) : Nat :=
  charsBefore d.position - indentWidth line + 1

open Excerpt in
/-- The shown line and the caret below it. -/
def caretLines (d : Diagnostic) (line : List Char) : List Char :=
  let number := (toString d.position.line).toList
  let gutter := padLeft ' ' (number.length + 2) ['|']
  gutter ++ ['\n']
    ++ number ++ " | ".toList ++ shown line ++ ['\n']
    ++ gutter ++ [' '] ++ padLeft '-' (d.caretWidth line) ['^'] ++ ['\n']

/-- The diagnostic with the source line it points at, if `source` has that line. -/
def render (d : Diagnostic) (source : String) : String :=
  let head := d.headline ++ "-> " ++ d.position.file ++ "\n"
  match Excerpt.lineAt? source d.position with
  | none => head
  | some line => head ++ String.ofList (d.caretLines line)

end Diagnostic

end Quill
