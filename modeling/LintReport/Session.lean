import LintReport.Diagnostic
import LintReport.FileTree

/-!
# Runs with effects

What a run can be seen to do: it changes files, runs commands, and writes to its output and its
diagnostics. A run that ends in a fault has done everything that came before it.

## Main definitions

* `Session`: the files and what has been written and run so far.
* `Run`: a run that may end in a fault.
* `Run.print`, `Run.note`, `Run.tell`.
-/

namespace LintReport

/-- A command that was run: whether its output was kept, and the files at that moment. -/
structure CommandRecord where
  command : List String
  keepsOutput : Bool
  files : FileTree

/-- The files, and what has been written and run so far. -/
structure Session where
  files : FileTree := {}
  output : String := ""
  diagnostics : String := ""
  commands : List CommandRecord := []

/-- A run that may end in a fault. -/
abbrev Run (ε : Type) := ExceptT ε (StateM Session)

namespace Run

variable {ε α : Type}

/-- Writes a line to the output. -/
def print (line : String) : Run ε Unit :=
  modify fun s => { s with output := s.output ++ line ++ "\n" }

/-- Writes a line to the diagnostics. -/
def note (line : String) : Run ε Unit :=
  modify fun s => { s with diagnostics := s.diagnostics ++ line ++ "\n" }

/-- Writes a message to the diagnostics. -/
def tell (d : Diagnostic) (inWorkflow : Bool := false) : Run ε Unit := note (d.line inWorkflow)

/-- The files as they are now. -/
def files : Run ε FileTree := return (← get).files

/-- Changes the files. -/
def setFiles (t : FileTree) : Run ε Unit := modify fun s => { s with files := t }

/-- Does an operation on the files. -/
def onFiles (step : ExceptT ε (StateM FileTree) α) : Run ε α := do
  let (result, t) := step.run (← files)
  setFiles t
  match result with
  | .ok a => return a
  | .error e => throw e

/-- A run that hands out its fault as a value. -/
def attempt {δ : Type} (run : Run ε α) : Run δ (Except ε α) := ExceptT.lift run.run

/-- The result of a computation, or its fault. -/
def ofExcept (e : Except ε α) : Run ε α :=
  match e with
  | .ok a => return a
  | .error e => throw e

end Run

end LintReport
