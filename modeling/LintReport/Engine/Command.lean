import LintReport.Settings

/-!
# The command that starts the engine

## Main definitions

* `ScanOptions`: what a user asks of a scan.
* `Engine.resolve`: which program is the engine.
* `Engine.arguments`: what it is told.
-/

namespace LintReport

/-- What a user asks of a scan. -/
structure ScanOptions where
  json : Bool := false
  fix : Bool := false
  inWorkflow : Bool := false
  excluded : List String := []
deriving DecidableEq, Repr

/-- Whether the issues have to be read, and not only shown by the engine itself. -/
def ScanOptions.readsIssues (o : ScanOptions) : Bool := o.json || o.inWorkflow

namespace Engine

/-- The names under which the engine is installed, the preferred one first. -/
def names : List String := ["ast-grep", "sg"]

/-- The program to run: the one that is set, or the first installed one, or else the preferred name.
`installed` says where a name is found. -/
def resolve (engine : Option String) (installed : String → Option String) : String :=
  match Environment.nonEmpty engine with
  | some program => program
  | none => (names.findSome? fun name => Environment.nonEmpty (installed name)).getD "ast-grep"

/-- The arguments for a scan of a path. -/
def arguments (configuration : Path) (path : String) (o : ScanOptions) : List String :=
  ["scan", "--config", configuration.text] ++ (if o.readsIssues then ["--json"] else []) ++
    (if o.fix then ["--update-all"] else []) ++ [path]

/-- What a run of the engine leaves: its exit code, and its output where that is read. -/
structure Result where
  code : Int
  output : String := ""
deriving DecidableEq, Repr

end Engine

end LintReport
