import LintReport.Engine.Configuration
import LintReport.Engine.Launch
import LintReport.Engine.Report
import LintReport.FileTree.Make
import LintReport.Rules.Catalogue
import LintReport.Session

/-!
# Scans

A scan writes a configuration for the engine into a directory of its own, runs the engine, removes
the directory, and reports. Whatever happens in between, the directory is removed.

## Main definitions

* `Scan.Runner`: what runs a command.
* `Scan.withConfiguration`: a run inside which a configuration file exists.
* `Scan.report`: reports what the engine found.
* `Scan.run`: a whole scan, with its exit code.
-/

namespace LintReport

/-- Why a scan did not end with an exit code. -/
inductive ScanFault
  | configuration (fault : ReadFault)
  | rules (fault : RuleFault)
  | engine (fault : Engine.Fault)
  | output (limit : Json.Limit)
  | file (fault : FileFault)
deriving DecidableEq, Repr

namespace Scan

/-- What runs a command, given the files and whether the output is to be kept. -/
abbrev Runner := FileTree → List String → Bool → Except Engine.Fault Engine.Result

/-- What a scan takes from around it: what runs commands, where programs are installed, and a
directory that does not exist yet. -/
structure Surroundings where
  runner : Runner
  installed : String → Option String
  scratch : Path

/-- The file that holds the configuration of a scan. -/
def Surroundings.configuration (around : Surroundings) : Path :=
  around.scratch.child Configuration.fileName

/-- What is said when the engine cannot be started. -/
def installHint : String :=
  "Make sure ast-grep is installed: npm install -g @ast-grep/cli (or cargo install ast-grep)"

/-- Adds text to a file, or writes a new one. -/
def addText (p : Path) (text : String) : Run ScanFault Unit := do
  match (← Run.files).append p (Text.Utf8.encode text) with
  | .ok t => Run.setFiles t
  | .error kind => throw (.file ⟨kind, p.text⟩)

/-- A run inside which a configuration for some directories exists. -/
def withConfiguration {α : Type} (around : Surroundings) (dirs : List String)
    (use : Run ScanFault α) : Run ScanFault α := do
  Run.setFiles ((← Run.files).place around.scratch .directory)
  let inside : Run ScanFault α := do
    let text ← Run.ofExcept
      ((Configuration.generate dirs).mapError ScanFault.configuration)
    addText around.configuration text
    use
  tryFinally inside do
    Run.setFiles ((← Run.files).remove around.scratch)

/-- Runs a command and records it. -/
def runEngine (around : Surroundings) (command : List String) (keepsOutput : Bool) :
    Run ScanFault Engine.Result := do
  let t ← Run.files
  modify fun s => { s with commands := s.commands ++ [⟨command, keepsOutput, t⟩] }
  Run.ofExcept ((around.runner t command keepsOutput).mapError ScanFault.engine)

/-- Says and prints what a report holds, and returns its code. -/
def deliver (report : Report) (o : ScanOptions) (settings : Settings) : Run ScanFault Int := do
  for d in report.diagnostics do Run.tell d o.inWorkflow
  for line in report.output do Run.print line
  match report.stepOutput, settings.stepOutputFile with
  | some text, some p => addText p text
  | _, _ => pure ()
  return report.code

/-- Reports a run of the engine. Where the reader has no room for its output, nothing is reported.
-/
def report (result : Engine.Result) (o : ScanOptions) (allowed : List String)
    (settings : Settings) : Run ScanFault Int := do
  deliver (← Run.ofExcept ((Report.ofResult result o allowed).mapError ScanFault.output)) o settings

/-- Runs the engine with the configuration of a selection. -/
def engineResult (around : Surroundings) (selector : LanguageSelector) (path : String)
    (o : ScanOptions) (settings : Settings) : Run ScanFault Engine.Result :=
  withConfiguration around ((selector.ruleDirs settings.rulesRoot).map Path.text) do
    let program := Engine.resolve settings.engine around.installed
    let arguments := Engine.arguments around.configuration path o
    runEngine around (program :: arguments) o.readsIssues

/-- A scan of a path with the rules of a selection. -/
def run (around : Surroundings) (language path : String) (o : ScanOptions) (settings : Settings) :
    Run ScanFault Int := do
  match LanguageSelector.ofText? language with
  | none =>
    Run.tell (.error (LanguageSelector.invalidMessage language))
    return 1
  | some selector =>
    if !o.excluded.isEmpty && !o.readsIssues then
      Run.tell (.warning ("--exclude only applies with --json or --github-action; " ++
        "passing engine output through"))
    match ← (engineResult around selector path o settings).attempt with
    | .error (.engine (.launch message)) =>
      Run.tell (.error message) o.inWorkflow
      Run.note installHint
      return 1
    | .error (.engine (.interrupted signal)) => return 128 + signal
    | .error fault => throw fault
    | .ok result =>
      if o.readsIssues then
        let allowed ← Run.ofExcept
          ((Rules.ids (← Run.files) selector settings.rulesRoot).mapError ScanFault.rules)
        report result o allowed settings
      else return result.code

end Scan

end LintReport
