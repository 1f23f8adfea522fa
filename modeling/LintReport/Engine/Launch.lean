import LintReport.Engine.Command
import LintReport.Engine.Script
import LintReport.FileTree
import LintReport.Text.Line

/-!
# Starting the engine

A program is named by a path, or by a name that is looked up among the installed ones. Here the
installed programs are a shell and a few of its commands, and a program at a path is a script for
that shell.

## Main definitions

* `Engine.Fault`: why a run of the engine did not end with a result.
* `Engine.launch`: the result of a command.
-/

namespace LintReport.Engine

/-- Why a run of the engine did not end with a result. -/
inductive Fault
  /-- The program cannot be started, and it is said why. -/
  | launch (message : String)
  /-- The program cannot be started, for a reason that is not told to the user. -/
  | system (fault : FileFault)
  /-- A signal came while it was running. -/
  | interrupted (signal : Int)
  /-- The command is empty. -/
  | noProgram
  /-- The output is not UTF-8. -/
  | notUtf8
deriving DecidableEq, Repr

/-- What is said about a program that cannot be started. -/
def launchMessage (fault : FileFault) : String := s!"Error running ast-grep: {fault.message}"

/-- What it means that the system does not start a program. A program that is missing or must not be
run is what users meet; the other reasons are not put into words for them. -/
def Fault.ofFile (fault : FileFault) : Fault :=
  match fault.kind with
  | .notFound | .permission | .notDirectory => .launch (launchMessage fault)
  | _ => .system fault

/-- What a program writes and the code that it ends with. -/
abbrev Ending := List UInt8 × Int

/-- The content of a file, for scripts. -/
def readFile (t : FileTree) (name : String) : Option (List UInt8) :=
  match t.statText name with
  | .ok (_, .file content _) => some content
  | _ => none

/-- How a script ends. A script that cannot be understood ends as the shell would end it. -/
def runScript (t : FileTree) (text : List Char) (arguments : List String)
    (stopsAtFailure : Bool := false) : Ending :=
  (Script.run (readFile t) text arguments stopsAtFailure).getD ([], 2)

/-- How the shell ends that is given the name of a script and the script's arguments. -/
def runFile (t : FileTree) (arguments : List String) : Ending :=
  match arguments.head?.bind (readFile t ·) |>.bind Text.Utf8.decodeChars? with
  | some text => runScript t text arguments
  | none => ([], 2)

/-- What is written by the program that shows its arguments. Unlike the command of the shell it
takes backslashes as they are. -/
def echoed (arguments : List String) : List UInt8 :=
  match arguments with
  | "-n" :: texts => Text.Utf8.encode (" ".intercalate texts)
  | texts => Text.Utf8.encode (" ".intercalate texts ++ "\n")

/-- The name under which a program is installed, given by its path or by itself. -/
def installedName (name : String) : String :=
  match Path.parse name with
  | ⟨.top, ["bin", program]⟩ => program
  | ⟨.top, ["usr", "bin", program]⟩ => program
  | _ => name

/-- How an installed program ends. -/
def runInstalled? (t : FileTree) (name : String) (arguments : List String) : Option Ending :=
  let program := installedName name
  if ["sh", "bash", "dash"].contains program then
    match arguments with
    | ["-c"] => some ([], 2)
    | "-c" :: text :: [] => some (runScript t text.toList [name])
    | "-c" :: text :: more => some (runScript t text.toList more)
    | [] => some ([], 0)
    | _ => some (runFile t arguments)
  else if program == "echo" then some (echoed arguments, 0)
  else if ["true", "false", "printf", "cat"].contains program then
    let s := Script.State.simple (readFile t) { arguments := [] } false (program :: arguments)
    some (s.output, s.status)
  else none

/-- Where the shells are installed. -/
def shells : List String :=
  ["sh", "bash", "dash"].flatMap fun name => ["/bin/" ++ name, "/usr/bin/" ++ name]

/-- The words on the first line of a script, behind its mark. -/
def shellWords (line : List Char) : List String :=
  let blanked := (line.drop 2).map fun c => if c == '\t' then ' ' else c
  ((Text.splitChars ' ' blanked).filter fun w => !w.isEmpty).map String.ofList

/-- The arguments that a script hands to its shell, given by the words on its first line. Without
any word the file is no script. -/
def shellArguments : List String → Except FileFault.Kind (List String)
  | [] => .error .badFormat
  | shell :: arguments =>
    if shells.contains shell then .ok (arguments.take 1)
    else if shell == "/usr/bin/env" && arguments.take 1 ∈ [["sh"], ["bash"], ["dash"]] then .ok []
    else .error .notFound

/-- How a script ends whose shell gets some arguments ahead of the script's own. They are flags, or
else the first one names the script to run in place of this one. -/
def runWithShell (t : FileTree) (text : List Char) (shellArgs arguments : List String) : Ending :=
  match shellArgs with
  | [] => runScript t text arguments
  | flags :: _ =>
    if flags.startsWith "-" then runScript t text arguments (flags.toList.contains 'e')
    else runFile t (flags :: arguments)

/-- Whether an argument has more octets than the system hands to a program. -/
def isTooLong (argument : String) : Bool := 131072 ≤ argument.utf8ByteSize

/-- How the program at a path ends. -/
def runPath (t : FileTree) (name : String) (arguments : List String) : Except Fault Ending :=
  let refuse (kind : FileFault.Kind) := Fault.ofFile ⟨kind, name⟩
  match t.statText name with
  | .error kind => .error (refuse kind)
  | .ok (_, .directory) => .error (refuse .permission)
  | .ok (_, .file _ false) => .error (refuse .permission)
  | .ok (_, .file content true) =>
    if arguments.any isTooLong then .error (refuse .argumentsTooLong)
    else if content.take 2 == Text.Utf8.encode "#!" then
      let text := (Text.Utf8.decodeChars? content).getD []
      match shellArguments (shellWords (text.takeWhile (· != '\n'))) with
      | .ok shellArgs => .ok (runWithShell t text shellArgs (name :: arguments))
      | .error kind => .error (refuse kind)
    else .error (refuse .badFormat)

/-- How the program of a command ends. -/
def runCommand (t : FileTree) : List String → Except Fault Ending
  | [] => .error .noProgram
  | name :: arguments =>
    let refuse (kind : FileFault.Kind) := Fault.ofFile ⟨kind, name⟩
    if (name :: arguments).any fun arg => arg.toList.contains '\x00' then
      .error (refuse .nullCharacter)
    else
      match runInstalled? t name arguments with
      | some ending =>
        if FileTree.asksDirectory name then .error (refuse .notDirectory)
        else if arguments.any isTooLong then .error (refuse .argumentsTooLong)
        else .ok ending
      | none =>
        if name.toList.contains '/' then runPath t name arguments
        else if ["", ".", ".."].contains name then .error (refuse .permission)
        else if FileTree.nameLimit < name.utf8ByteSize then .error (refuse .nameTooLong)
        else .error (refuse .notFound)

/-- The result of a command. Its output is read as text only if it is to be kept. -/
def launch (t : FileTree) (command : List String) (keepsOutput : Bool) : Except Fault Result := do
  let (written, code) ← runCommand t command
  if keepsOutput then
    match Text.Utf8.decodeChars? written with
    | some cs => return ⟨code, String.ofList (Text.unifyNewlines cs)⟩
    | none => throw .notUtf8
  else return ⟨code, ""⟩

end LintReport.Engine
