import LintReport.Environment
import LintReport.Number.Numeral
import LintReport.Number.Shortest
import LintReport.Path
import LintReport.Text.Blank
import LintReport.Text.Quoted

/-!
# Settings

What the environment decides about a run: where the rules are, which engine to run, how to reach the
code host. A variable that holds only blanks counts as not set.

## Main definitions

* `Settings`, `Settings.ofEnvironment`.
* `ConfigurationFault`: why a configuration is refused, here and in the modules that write or read
  configuration files.
-/

namespace LintReport

/-- Why a configuration is refused. -/
inductive ConfigurationFault
  /-- A variable should hold a number. -/
  | notNumber (name text : String)
  /-- A variable should hold a number greater than zero. -/
  | notPositive (name : String)
  /-- There is no token for the code host. -/
  | noToken
  /-- Directories that would not read back from the engine's configuration. -/
  | unwritableDirs (dirs : List String)
  /-- The engine's configuration is not well-formed. -/
  | configSyntax
  /-- The engine's configuration has no list of directories. -/
  | noRuleDirs
  /-- The directories of the engine's configuration are no list. -/
  | ruleDirsNotList
  /-- A rule file is not well-formed. -/
  | ruleSyntax (path : String)
deriving DecidableEq, Repr

/-- The words for a fault. The text of a syntax fault ends where a description of the fault would
begin. -/
def ConfigurationFault.message : ConfigurationFault → String
  | .notNumber name text => s!"{name}: expected a number, got {Text.quote text}"
  | .notPositive name => s!"{name}: must be greater than zero"
  | .noToken => "GITHUB_TOKEN environment variable is required"
  | .unwritableDirs dirs =>
    s!"rule directory cannot be written to sgconfig.yml unquoted: {Text.quoteList dirs}"
  | .configSyntax => "invalid sgconfig YAML"
  | .noRuleDirs => "sgconfig: expected mapping with ruleDirs"
  | .ruleDirsNotList => "sgconfig.ruleDirs: expected list"
  | .ruleSyntax path => s!"invalid YAML in {path}"

/-- What the environment decides about a run. -/
structure Settings where
  /-- The directory of the rule trees. -/
  rulesRoot : Path := ⟨.package, ["rules"]⟩
  engine : Option String := none
  apiUrl : String := "https://api.github.com"
  /-- The file that takes the results of a workflow step. -/
  stepOutputFile : Option Path := none
  token : Option String := none
  /-- How many seconds to wait for a reply. -/
  timeout : Binary64 := .ofRatio false 30 1
deriving DecidableEq, Repr

namespace Settings

/-- The trimmed value of a variable that holds more than blanks. -/
def value? (env : Environment) (name : String) : Option String :=
  Environment.nonEmpty ((env.get? name).map Text.trim)

/-- The value of a variable that holds a number greater than zero. -/
def positive? (env : Environment) (name : String) :
    Except ConfigurationFault (Option Binary64) :=
  match value? env name with
  | none => .ok none
  | some text =>
    match Numeral.float? text with
    | none => .error (.notNumber name text)
    | some x => if x.isNonPositive then .error (.notPositive name) else .ok (some x)

/-- The settings of a run. -/
def ofEnvironment (env : Environment) : Except ConfigurationFault Settings := do
  let timeout ← positive? env "TEMPO_LINTS_HTTP_TIMEOUT"
  let defaults : Settings := {}
  return {
    rulesRoot := ((value? env "TEMPO_LINTS_RULES_ROOT").map Path.parse).getD defaults.rulesRoot
    engine := value? env "TEMPO_LINTS_AST_GREP"
    apiUrl := Text.dropTrailing '/' ((value? env "GITHUB_API_URL").getD defaults.apiUrl)
    stepOutputFile := (value? env "GITHUB_OUTPUT").map Path.parse
    token := value? env "GITHUB_TOKEN"
    timeout := timeout.getD defaults.timeout }

/-- The token for the code host. -/
def requireToken (settings : Settings) : Except ConfigurationFault String :=
  match settings.token with
  | none => .error .noToken
  | some token => .ok token

end Settings

end LintReport
