import Quill.Compile
import Quill.Diagnostic.Excerpt
import Quill.Outline.Typed
import Quill.Token.Reader

/-!
# The command

One text is read up to a stage, and the tree of that stage is written out. A fault is shown with an
excerpt of the text instead.
-/

namespace Quill

/-- How far a text is taken. -/
inductive Stage where
  | parsed
  | checked
  | simplified
deriving DecidableEq, Repr, Inhabited

namespace Stage

/-- Every stage. -/
def all : List Stage := [.parsed, .checked, .simplified]

/-- The name of a stage on the command line. -/
def name : Stage → String
  | .parsed => "parsed"
  | .checked => "analyzed"
  | .simplified => "optimized"

/-- The stage of that name. -/
def ofName? (name : String) : Option Stage := all.find? fun s => s.name == name

/-- The outline of the tree that a text gives at a stage. -/
def outline (source file : String) : Stage → Except Diagnostic Outline
  | .parsed => (parseSource source file).map Syntax.Block.outline
  | .checked => (checkSource .standard source file).map Typed.Program.outline
  | .simplified => (simplifySource .standard source file).map Typed.Program.outline

end Stage

/-- What a command leaves behind. -/
structure Outcome where
  exitCode : UInt32
  output : String
  errors : String
deriving DecidableEq, Repr, Inhabited

/-- Takes a text to a stage and writes the tree, or the fault. -/
def Stage.run (stage : Stage) (source file : String) : Outcome :=
  match stage.outline source file with
  | .ok tree => ⟨0, tree.render ++ "\n", ""⟩
  | .error d => ⟨1, "", d.render source⟩

/-- What the command is asked to do. -/
structure Invocation where
  path : String
  stage : Stage
deriving DecidableEq, Repr, Inhabited

namespace Invocation

/-- The arguments that are not yet read, after the path and the stage found so far. -/
def read? (path : Option String) (stage : Option Stage) : List String → Option Invocation
  | [] => path.map fun p => ⟨p, stage.getD .simplified⟩
  | "--stage" :: s :: rest =>
    if stage.isSome then none else (Stage.ofName? s).bind fun s => read? path (some s) rest
  | p :: rest => if path.isSome || p.startsWith "-" then none else read? (some p) stage rest

/-- Reads the arguments: one path, and `--stage` with a stage if another than the last is wanted. -/
def ofArgs? (args : List String) : Option Invocation := read? none none args

/-- How the command is called. -/
def usage : String := "usage: quill <file> [--stage parsed|analyzed|optimized]\n"

/-- The name that diagnostics give to the file: the last part of its path. -/
def file (i : Invocation) : String :=
  let parts := (i.path.splitOn "/").filter fun p => p ≠ "" && p ≠ "."
  match parts.getLast? with
  | none | some ".." => Reader.defaultFile
  | some name => name

end Invocation

end Quill
