/-!
# Places in a source text

A `Position` is a place between two characters of a named text, counted in three ways at once:
in bytes from the start, in lines, and in characters from the start of its line. A `Span` is the
stretch between two positions. Only a newline starts a new line.

Each count is a word of 32 bits and wraps around: it is the number of bytes, lines or characters
modulo `2 ^ 32`. So it is that number itself as long as the number is below `2 ^ 32`, and what is
said of places as numbers needs such a bound on the text.

Out of scope: arithmetic that stops the program when a line or a column overflows, where here it
wraps around; and the room that a text takes in memory. A text is a list of any length.
-/

namespace Quill

/-- A place in a text: its offset in UTF-8 bytes, and its line and column, both counted from 1. -/
structure Position where
  offset : UInt32
  line : UInt32
  column : UInt32
  file : String
deriving DecidableEq, Repr, Inhabited

namespace Position

/-- The place before the first character of `file`. -/
def start (file : String) : Position := ⟨0, 1, 1, file⟩

/-- No place at all: line 0 is a line of no text. -/
def nowhere : Position := ⟨0, 0, 0, "<null>"⟩

/-- The place just behind the character `c` that stands at `p`. -/
def next (p : Position) (c : Char) : Position :=
  if c = '\n' then ⟨p.offset + .ofNat c.utf8Size, p.line + 1, 1, p.file⟩
  else ⟨p.offset + .ofNat c.utf8Size, p.line, p.column + 1, p.file⟩

/-- The place behind a whole text that stands at `p`. -/
def after (p : Position) (text : List Char) : Position := text.foldl next p

/-- The place one byte and one column further on the same line. -/
def succ (p : Position) : Position := ⟨p.offset + 1, p.line, p.column + 1, p.file⟩

@[simp] theorem after_nil (p : Position) : p.after [] = p := rfl

@[simp] theorem after_cons (p : Position) (c : Char) (cs : List Char) :
    p.after (c :: cs) = (p.next c).after cs := rfl

theorem after_append (p : Position) (xs ys : List Char) :
    p.after (xs ++ ys) = (p.after xs).after ys := by
  simp [after]

end Position

/-- The stretch of a text from `start` to `stop`. -/
structure Span where
  start : Position
  stop : Position
deriving DecidableEq, Repr, Inhabited

namespace Span

/-- The span of nothing. -/
def nowhere : Span := ⟨.nowhere, .nowhere⟩

/-- From the start of `s` to the end of `t`. -/
def join (s t : Span) : Span := ⟨s.start, t.stop⟩

end Span

end Quill
