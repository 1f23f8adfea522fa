import LintReport.CommandLine.Lint
import LintReport.CommandLine.Post
import LintReport.FileTree.Make
import LintReport.Rules.Packaged

/-!
# The program

This is all that touches the outside: the variables and the files of the process are read, a command
is run on them, and what it has written and changed is handed over. The program is known by two
names, one for each command.

There is no network here, so that posting a comment ends with what is said about a host that cannot
be reached; a preview of the comment needs none.

## Main definitions

* `main`.
-/

namespace LintReport.Main

open LintReport

/-- The variables that are looked at. -/
def variableNames : List String :=
  ["TEMPO_LINTS_RULES_ROOT", "TEMPO_LINTS_AST_GREP", "TEMPO_LINTS_HTTP_TIMEOUT", "GITHUB_API_URL",
    "GITHUB_OUTPUT", "GITHUB_TOKEN", "GITHUB_SERVER_URL", "GITHUB_REPOSITORY", "GITHUB_SHA"]

/-- The variables of the process. -/
def readEnvironment : IO Environment := do
  let values ← variableNames.mapM fun name => do return (← IO.getEnv name).map fun v => (name, v)
  return values.filterMap id

/-- The text of a location for the file system. -/
def locationText (l : FileTree.Location) : String :=
  (if l.place == .top then "/" else "./") ++ "/".intercalate l.names

/-- The tree with an entry of the file system, if it is there, and everything below it. The budget
bounds the depth of the directories. -/
def readEntry : Nat → FileTree.Location → FileTree → IO FileTree
  | 0, _, t => return t
  | budget + 1, l, t => do
    match ← (IO.FS.realPath (locationText l)).toBaseIO with
    | .error _ => return t
    | .ok path =>
      if ← path.isDir then
        let t := if l.names.isEmpty then t else t.put l .directory
        (← path.readDir).foldlM (fun t e => readEntry budget (l.child e.fileName) t) t
      else return t.put l (.file (← IO.FS.readBinFile path).toList true)

/-- The tree with the entry at an absolute path and the directories above it. -/
def readAbsolute (t : FileTree) (text : String) : IO FileTree := do
  let names := (Path.parse text).names
  if names.contains ".." then return t
  let above := (List.range names.length).map fun n => (⟨.top, names.take n⟩ : FileTree.Location)
  let t := (above.filter fun l => !l.names.isEmpty).foldl (fun t l => t.put l .directory) t
  readEntry 64 ⟨.top, names⟩ t

/-- The working directory, and the absolute paths among some texts. -/
def readFiles (texts : List String) : IO FileTree := do
  let t ← readEntry 64 ⟨.working, []⟩ (Packaged.install {})
  (texts.filter fun text => 1 < text.length && text.startsWith "/").foldlM readAbsolute t

/-- Writes what is new or different. -/
def writeFiles (before after : FileTree) : IO Unit := do
  for (l, e) in after.entries do
    if l.place != .package && before.entry? l != some e then
      match e with
      | .directory => IO.FS.createDirAll (locationText l)
      | .file content _ => IO.FS.writeBinFile (locationText l) ⟨content.toArray⟩

/-- What a scan takes from the process. -/
def surroundings : Scan.Surroundings where
  runner := Engine.launch
  installed _ := none
  scratch := Path.parse "/tmp/tempo-lints"

/-- What carries requests where there is no network. -/
def offline : CommandLine.Post.Link Unit where
  carry _ s := (.error "no network", s)

/-- Hands over what a command has done, and returns the code to exit with. -/
def handOver {ε : Type} [Repr ε] (before : FileTree) (result : Except ε CommandLine.Ending)
    (s : Session) : IO UInt32 := do
  writeFiles before s.files
  IO.print s.output
  IO.eprint s.diagnostics
  match result with
  | .ok ending =>
    if let .misused usage complaint := ending then
      IO.eprintln ("\n".intercalate (usage ++ [complaint]))
    return UInt32.ofNat (ending.code % 256).toNat
  | .error fault =>
    IO.eprintln (reprStr fault)
    return 1

end LintReport.Main

open LintReport in
/-- The command that the name of the program stands for. -/
def main (arguments : List String) : IO UInt32 := do
  let env ← Main.readEnvironment
  let before ← Main.readFiles (arguments ++ env.map (·.2))
  if (← IO.appPath).fileName == some CommandLine.Post.grammar.program then
    let world := (({ files := before } : Session), { transport := () })
    let (result, s, _) := CommandLine.Post.run Main.offline env arguments world
    Main.handOver before result s
  else
    let (result, s) :=
      (CommandLine.Lint.run Main.surroundings env arguments).run.run { files := before }
    Main.handOver before result s
