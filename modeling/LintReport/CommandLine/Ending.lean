import LintReport.CommandLine.Help
import LintReport.CommandLine.Reading
import LintReport.Session
import LintReport.Settings

/-!
# How commands end

## Main definitions

* `Ending`: how a command ends that does not end in a fault.
* `Grammar.run`: a command with arguments.
-/

namespace LintReport.CommandLine

/-- How a command ends that does not end in a fault. -/
inductive Ending
  /-- It has done its work and returns a code. -/
  | returned (code : Int)
  /-- It has shown its help or its version. -/
  | shown
  /-- It was not called as its usage says. -/
  | misused (usage : List String) (complaint : String)
deriving DecidableEq, Repr

/-- The code that a process with an ending exits with. -/
def Ending.code : Ending → Int
  | returned code => code
  | shown => 0
  | misused .. => 2

/-- Reads arguments and goes on with their values, or shows what they ask for. -/
def Grammar.run {σ ε : Type} (g : Grammar σ) (arguments : List String)
    (use : σ → Run ε Ending) : Run ε Ending :=
  match g.read arguments with
  | .ok values => use values
  | .error .help => do
    Run.print g.help
    return .shown
  | .error (.version number) => do
    Run.print (g.program ++ " " ++ number)
    return .shown
  | .error (.misuse fault) => return .misused g.usage (g.program ++ ": error: " ++ fault.message)

/-- Reports that a configuration is refused. -/
def refuse {ε : Type} (fault : ConfigurationFault) : Run ε Ending := do
  Run.tell (.error fault.message)
  return .returned 1

end LintReport.CommandLine
