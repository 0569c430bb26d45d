import Quill.Position

/-!
# Reading a text from left to right

A `Reader` is what is left of a text together with the place where it starts.
-/

namespace Quill

/-- What is left of a text, and where that stands. -/
structure Reader where
  rest : List Char
  position : Position
deriving DecidableEq, Repr

namespace Reader

/-- The name of a text that has none. -/
def defaultFile : String := "shell"

/-- A whole text, about to be read. -/
def ofText (text file : String) : Reader := ⟨text.toList, .start file⟩

/-- Whether everything has been read. -/
def atEnd (r : Reader) : Bool := r.rest.isEmpty

/-- The next character, or NUL behind the last one. -/
def head (r : Reader) : Char := r.rest.headD '\x00'

/-- Moves over whole characters from `position` on until `n` bytes or all of them are read. -/
def skip (n : Nat) (position : Position) : List Char → Reader
  | [] => ⟨[], position⟩
  | c :: cs => if n = 0 then ⟨c :: cs, position⟩ else skip (n - c.utf8Size) (position.next c) cs

/-- Moves over `n` bytes, or over all that is left. -/
def advance (r : Reader) (n : Nat) : Reader := skip n r.position r.rest

theorem length_skip_le (n : Nat) (p : Position) (cs : List Char) :
    (skip n p cs).rest.length ≤ cs.length := by
  fun_induction skip n p cs with
  | case1 | case2 => simp
  | case3 n p c cs _ ih => exact Nat.le_succ_of_le ih

/-- Moving over some bytes leaves less to read. -/
theorem length_advance_lt {n : Nat} (hn : 0 < n) (c : Char) (cs : List Char) (p : Position) :
    (advance ⟨c :: cs, p⟩ n).rest.length < (c :: cs).length := by
  rw [advance, skip, if_neg (by omega)]
  exact Nat.lt_succ_of_le (length_skip_le _ _ cs)

end Reader

end Quill
