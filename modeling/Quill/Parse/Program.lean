import Quill.Parse.Stmt
import Quill.Token.Scan

/-!
# Parsing programs

`parse` reads the tokens of a whole program, `parseSource` its text. The functions of `Grammar`
read one construct at a cursor. Every nested call and every round of a loop passes a token, except
that a statement may start with an expression; so one unit of budget more than the weight of the
cursor is enough.
-/

namespace Quill

open Syntax

/-- A budget that no parser uses up on the tokens from the cursor on. -/
def Cursor.budget (c : Cursor) : Nat := c.weight + 1

/-- What a failure at the cursor says. -/
def Failure.diagnostic (c : Cursor) : Failure → Diagnostic
  | .fault d => d
  | .exhausted => c.unexpected

/-- Runs a parser that needs a budget on a cursor: the result or the fault, and the cursor that the
parser leaves. -/
def Cursor.run {α : Type} (c : Cursor) (p : Nat → Parser α) : Except Diagnostic α × Cursor :=
  match p c.budget c with
  | .ok a c' => (.ok a, c')
  | .error f c' => (.error (f.diagnostic c'), c')

namespace Grammar

/-- The expression at the cursor that holds more tightly than `power`. -/
def parseExpr (g : Grammar) (power : Power) (c : Cursor) : Except Diagnostic Expr × Cursor :=
  c.run fun n => Parse.expr g n power

/-- The annotation at the cursor that holds more tightly than `power`. -/
def parseType (g : Grammar) (power : Power) (c : Cursor) :
    Except Diagnostic TypeExpr × Cursor :=
  c.run fun n => Parse.typeExpr g n power

/-- The statement at the cursor. -/
def parseStmt (g : Grammar) (c : Cursor) : Except Diagnostic Stmt × Cursor :=
  c.run (Parse.stmt g)

/-- The block at the cursor. -/
def parseBlock (g : Grammar) (c : Cursor) : Except Diagnostic Block × Cursor :=
  c.run fun n => Parse.block (Parse.stmt g n) n

end Grammar

namespace Parse

/-- All statements up to the end of the tokens, as one block. -/
def program (g : Grammar) (n : Nat) : Parser Block := do
  let start := (← get).position
  let body ← Parser.untilEnd (stmt g n) n
  return .mk body ⟨start, (← get).position⟩

end Parse

/-- The program that a list of tokens writes. -/
def parse (tokens : List Token) (file : String) : Except Diagnostic Block :=
  ((Cursor.ofTokens tokens file).run (Parse.program .standard)).1

/-- The program that a text writes. -/
def parseSource (source file : String) : Except Diagnostic Block :=
  (tokenize source file).bind fun tokens => parse tokens file

end Quill
