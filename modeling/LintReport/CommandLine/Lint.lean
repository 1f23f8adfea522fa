import LintReport.CommandLine.Ending
import LintReport.Issue.Exclusion
import LintReport.Rules.Vendor
import LintReport.Scan
import LintReport.Text.Collection

/-!
# The command that lints

`tempo-lints` scans a path, or copies rules into a project if its first argument is `vendor`. The
settings are read before the arguments.

## Main definitions

* `Lint.Arguments`, `Lint.grammar`; `Lint.VendorArguments`, `Lint.vendorGrammar`.
* `Lint.run`: the whole command.
-/

namespace LintReport.CommandLine

namespace Lint

/-- The name of the command. -/
def program : String := "tempo-lints"

/-- What a scan is told. -/
structure Arguments where
  language : String := ""
  path : String := "."
  excluded : String := ""
  json : Bool := false
  fix : Bool := false
  inWorkflow : Bool := false
deriving DecidableEq, Repr

/-- The grammar of a scan. -/
def grammar : Grammar Arguments where
  program := program
  about := "Shared ast-grep lint rules for Tempo projects"
  epilogue :=
    some s!"Vendor rules into a project with: {program} vendor --lang <language> --dest <path>"
  options := [
    .helpRule,
    { names := ["--version"], about := "show program's version number and exit",
      effect := .version "0.3.0" },
    { names := ["--exclude"], about := "Comma-separated list of rules to exclude",
      effect := .text fun value a => { a with excluded := value.getD "" } },
    { names := ["--json"], about := "Output results as JSON",
      effect := .flag fun a => { a with json := true } },
    { names := ["--fix"], about := "Apply auto-fixes where available",
      effect := .flag fun a => { a with fix := true } },
    { names := ["--github-action"], about := "Output in GitHub Actions format with annotations",
      effect := .flag fun a => { a with inWorkflow := true } }]
  operands := [
    { name := "language", about := "Language to lint: " ++ LanguageSelector.choiceList,
      set := fun value a => { a with language := value } },
    { name := "path", about := "Path to scan (default: .)", required := false,
      set := fun value a => { a with path := value } }]
  initial := {}

/-- What vendoring is told. -/
structure VendorArguments where
  language : Option String := none
  project : Option String := none
deriving DecidableEq, Repr

/-- The grammar of vendoring. -/
def vendorGrammar : Grammar VendorArguments where
  program := program ++ " vendor"
  about := "Copy lint rules to a destination project for offline/locked usage"
  options := [
    .helpRule,
    { names := ["--lang"], required := true,
      about := "Language rules to vendor: " ++ LanguageSelector.choiceList,
      effect := .text fun value a => { a with language := value } },
    { names := ["--dest"], required := true, about := "Destination project path",
      effect := .text fun value a => { a with project := value } }]
  initial := {}

/-- Why a command ended in a fault. -/
inductive Fault
  | scan (fault : ScanFault)
  | vendor (fault : VendorFault)
  /-- The option for the project has no value. -/
  | noProject
deriving DecidableEq, Repr

/-- What a scan is asked for. -/
def Arguments.options (a : Arguments) : ScanOptions where
  json := a.json
  fix := a.fix
  inWorkflow := a.inWorkflow
  excluded := Issue.parseExclusions (some a.excluded)

/-- The refusal of a configuration behind a fault. -/
def refusal? : ScanFault → Option ConfigurationFault
  | .configuration (.refused fault) => some fault
  | .rules (.document (.refused fault)) => some fault
  | _ => none

/-- Scans. -/
def scan (around : Scan.Surroundings) (settings : Settings) (a : Arguments) : Run Fault Ending := do
  match ← (Scan.run around a.language a.path a.options settings).attempt with
  | .ok code => return .returned code
  | .error fault =>
    match refusal? fault with
    | some refused => refuse refused
    | none => throw (.scan fault)

/-- Reports that rules could not be copied. -/
def reportVendoring (message : String) : Run Fault Ending := do
  Run.tell (.error s!"vendoring failed: {message}")
  return .returned 1

/-- What becomes of a fault of vendoring: what the system reports is told to the user. -/
def endVendoring : VendorFault → Run Fault Ending
  | .file fault =>
    if fault.isReported then reportVendoring fault.message else throw (.vendor (.file fault))
  | .copy (.file fault) =>
    if fault.isReported then reportVendoring fault.message
    else throw (.vendor (.copy (.file fault)))
  | .copy (.entries problems) => reportVendoring (CopyFault.entries problems).message
  | .configuration (.refused fault) => refuse fault
  | fault => throw (.vendor fault)

/-- Copies rules into a project. The language is looked at before the project. -/
def vendor (settings : Settings) (a : VendorArguments) : Run Fault Ending := do
  let language := Text.orEmptyList a.language
  if (LanguageSelector.ofText? language).isNone then
    Run.tell (.error (LanguageSelector.invalidMessage language))
    return .returned 1
  match a.project with
  | none => throw .noProject
  | some project =>
    match ← (Rules.vendor language (Path.parse project) settings.rulesRoot).attempt with
    | .ok _ => return .returned 0
    | .error fault => endVendoring fault

/-- The command. -/
def run (around : Scan.Surroundings) (env : Environment) (arguments : List String) :
    Run Fault Ending :=
  match Settings.ofEnvironment env with
  | .error fault => refuse fault
  | .ok settings =>
    match arguments with
    | "vendor" :: arguments => vendorGrammar.run arguments (vendor settings)
    | arguments => grammar.run arguments (scan around settings)

end Lint

end LintReport.CommandLine
