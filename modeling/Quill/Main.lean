import Quill.Command

/-!
# The program

Reads the file that the arguments name and prints what the command leaves behind.
-/

open Quill

/-- Prints what a command leaves behind. -/
def Quill.Outcome.report (outcome : Outcome) : IO UInt32 := do
  IO.print outcome.output
  IO.eprint outcome.errors
  return outcome.exitCode

/-- The entry point. -/
def main (args : List String) : IO UInt32 := do
  match Invocation.ofArgs? args with
  | none => Outcome.report ⟨2, "", Invocation.usage⟩
  | some i =>
    try
      let source ← IO.FS.readFile i.path
      (i.stage.run source i.file).report
    catch e =>
      Outcome.report ⟨1, "", "Error: cannot read " ++ i.path ++ ": " ++ toString e ++ "\n"⟩
