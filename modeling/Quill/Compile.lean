import Quill.Check.Stmt
import Quill.Parse.Program
import Quill.Simplify.Program

/-!
# From text to a simplified program

`checkSource` reads and checks a text, `simplifySource` also simplifies what comes out. The first
fault of the first step that has one ends it all.
-/

namespace Quill

/-- The checked program that a text writes, with the names of the library. -/
def checkSource (lib : Library) (source file : String) : Except Diagnostic Typed.Program :=
  (parseSource source file).bind (Check.program lib)

/-- The simplified program that a text writes. -/
def simplifySource (lib : Library) (source file : String) : Except Diagnostic Typed.Program :=
  (checkSource lib source file).map Typed.Program.simplify

/-- The program after `n` passes of simplification. -/
def Typed.Program.simplifyTimes (p : Typed.Program) (n : Nat) : Typed.Program :=
  n.repeat Typed.Program.simplify p

end Quill
