import LintReport.Engine.Configuration
import LintReport.FileTree
import LintReport.Rules.Language
import LintReport.Text.Line
import LintReport.Text.Utf8

/-!
# The rules in a rule tree

A rule file is a YAML file that lies directly in a rule directory. Each of its documents that is a
mapping with an `id` describes a rule.

## Main definitions

* `Rules.files`: the rule files of a directory, by name.
* `Rules.idsOfText`: the ids in the text of a rule file.
* `Rules.ids`: the ids of all rules of a selection.
-/

namespace LintReport

/-- Why a file could not be read as text. -/
inductive TextFault
  | file (fault : FileFault)
  /-- Its octets are not UTF-8. -/
  | notUtf8
deriving DecidableEq, Repr

/-- The text of the file at a path, with unified line ends. -/
def FileTree.readText (t : FileTree) (p : Path) : Except TextFault String :=
  match t.read p with
  | .error kind => .error (.file ⟨kind, p.text⟩)
  | .ok octets =>
    match Text.Utf8.decodeChars? octets with
    | none => .error .notUtf8
    | some cs => .ok (String.ofList (Text.unifyNewlines cs))

/-- Why the ids of the rules could not be collected. -/
inductive RuleFault
  | text (fault : TextFault)
  | document (fault : ReadFault)
deriving DecidableEq, Repr

namespace Rules

/-- Whether a name is that of a rule file. -/
def isRuleName (name : String) : Bool :=
  [".yml", ".yaml"].contains (String.ofList (Path.suffixOf name.toList))

/-- Names in the order of their code points. -/
def inNameOrder (names : List String) : List String :=
  names.mergeSort fun a b => !decide (b < a)

/-- The rule files that lie directly in a directory, by name. A missing directory has none. -/
def files (t : FileTree) (dir : Path) : Except FileFault (List Path) := do
  match ← t.look dir with
  | some (l, .directory) =>
    let names ← (t.namesIn l).filterM fun name => t.hasFile (dir.child name)
    return (inNameOrder (names.filter isRuleName)).map dir.child
  | _ => return []

/-- The id of a rule document: a string with more than blanks, trimmed. -/
def idOf? (v : Yaml.Value) : Option String := do
  let s ← v.str? (← v.member? "id")
  if Text.isBlankText s then none else some (Text.trim s)

/-- The ids in the text of the rule file at a path. -/
def idsOfText (path : Path) (text : String) : Except RuleFault (List String) :=
  match Yaml.loadAll text with
  | .error fault => .error (.document (ReadFault.ofYaml (.ruleSyntax path.text) fault))
  | .ok vs => .ok (vs.filterMap idOf?)

/-- The ids in the rule file at a path. -/
def idsOfFile (t : FileTree) (path : Path) : Except RuleFault (List String) :=
  match t.readText path with
  | .error fault => .error (.text fault)
  | .ok text => idsOfText path text

/-- The ids in the rule files of a directory. -/
def idsOfDirectory (t : FileTree) (dir : Path) : Except RuleFault (List String) := do
  let paths ← (files t dir).mapError fun fault => RuleFault.text (.file fault)
  return (← paths.mapM (idsOfFile t)).flatten

/-- The ids of the rules of a selection, in the order in which they are found. -/
def ids (t : FileTree) (selector : LanguageSelector) (root : Path) :
    Except RuleFault (List String) :=
  return (← (selector.ruleDirs root).mapM (idsOfDirectory t)).flatten

end Rules

end LintReport
