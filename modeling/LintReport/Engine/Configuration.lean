import LintReport.Settings
import LintReport.Yaml.Display
import LintReport.Yaml.Load

/-!
# The configuration of the engine

The engine finds its rules through a YAML file that lists directories. The directories are written
without quotes; a list that would not read back as it is is refused.

## Main definitions

* `Configuration.render`: the text for a list of directories.
* `Configuration.read`: the directories in a text.
* `Configuration.generate`: the text, if it reads back as the list.
* `ReadFault`: faults that reading a text may end in.
-/

namespace LintReport

/-- Why a configuration could not be read: it is refused, or a scalar in it cannot be read, or a
directory in it cannot be shown. -/
inductive ReadFault
  | refused (fault : ConfigurationFault)
  | scalar (fault : Yaml.Fault)
  | unshown
deriving DecidableEq, Repr

/-- What a fault of a YAML text means for a reader who refuses texts that are not well-formed. -/
def ReadFault.ofYaml (refusal : ConfigurationFault) : Yaml.Fault → ReadFault
  | .malformed => .refused refusal
  | fault => .scalar fault

namespace Configuration

/-- The name of the file. -/
def fileName : String := "sgconfig.yml"

/-- The text for a list of directories. -/
def render (dirs : List String) : String :=
  "ruleDirs:\n" ++ "\n".intercalate (dirs.map fun d => "  - " ++ d) ++ "\n"

/-- The texts of a list, if each of its elements can be shown. -/
def shown (texts : Option (List String)) : Except ReadFault (List String) :=
  match texts with
  | some texts => .ok texts
  | none => .error .unshown

/-- The directories of a configuration that has been loaded. -/
def ofValue (v : Option Yaml.Value) : Except ReadFault (List String) :=
  match v with
  | none => .error (.refused .noRuleDirs)
  | some v =>
    match v.member? "ruleDirs" with
    | none => .error (.refused .noRuleDirs)
    | some id =>
      match v.at? id with
      | some (.scalar .null) => .ok []
      | some (.list items) => shown (items.mapM v.text?)
      | some (.pairs items) => shown (items.mapM v.pairText?)
      | _ => .error (.refused .ruleDirsNotList)

/-- The directories in a text. -/
def read (text : String) : Except ReadFault (List String) :=
  match Yaml.loadOne text with
  | .error fault => .error (ReadFault.ofYaml .configSyntax fault)
  | .ok v => ofValue v

/-- The text for a list of directories, if it reads back as that list. -/
def generate (dirs : List String) : Except ReadFault String :=
  let text := render dirs
  match read text with
  | .ok back => if back == dirs then .ok text else .error (.refused (.unwritableDirs dirs))
  | .error (.refused _) => .error (.refused (.unwritableDirs dirs))
  | .error fault => .error fault

end Configuration

end LintReport
