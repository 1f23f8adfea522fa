import LintReport.FileTree.Make

/-!
# Copying directories

A directory is copied with everything below it into another directory, which may already be there.
Files that are there are overwritten. An entry that cannot be copied does not stop the others; all
problems are reported together at the end.

## Main definitions

* `CopyProblem`, `CopyFault`: what can go wrong.
* `FileTree.copyFile`, `FileTree.copyTree`, `FileTree.copyDirectory`.
-/

namespace LintReport

/-- One entry that could not be copied. -/
inductive CopyProblem
  /-- The path of the entry, the path it was copied to, and what happened. -/
  | entry (source target message : String)
  /-- A letter of a message that stands by itself. -/
  | letter (c : Char)
deriving DecidableEq, Repr

/-- A problem as it is listed. -/
def CopyProblem.text : CopyProblem → String
  | entry source target message =>
    s!"({Text.quote source}, {Text.quote target}, {Text.quote message})"
  | letter c => Text.quote (String.singleton c)

/-- Why a directory was not copied completely. -/
inductive CopyFault
  /-- The target could not be made. -/
  | file (fault : FileFault)
  /-- Some entries could not be copied. -/
  | entries (problems : List CopyProblem)
deriving DecidableEq, Repr

/-- The words for a fault. -/
def CopyFault.message : CopyFault → String
  | file fault => fault.message
  | entries problems => "[" ++ ", ".intercalate (problems.map CopyProblem.text) ++ "]"

namespace FileTree

/-- What is said when a file would be copied onto itself. -/
def sameFileMessage (name target : String) : String :=
  s!"<DirEntry {Text.quote name}> and {Text.quote target} are the same file"

/-- Copies a file to a path, or under its own name into the directory at that path. -/
def copyFile (source target : Path) : Step CopyFault Unit := do
  let t ← get
  let target := if t.isDirectory target then target.child source.name else target
  match t.stat source with
  | .error kind => throw (.file ⟨kind, source.text⟩)
  | .ok (_, .directory) => throw (.file ⟨.isDirectory, source.text⟩)
  | .ok (l, .file content executable) =>
    if (t.stat target).toOption.map (·.1) == some l then
      throw (.entries ((sameFileMessage source.name target.text).toList.map .letter))
    match t.write target content with
    | .error kind => throw (.file ⟨kind, target.text⟩)
    | .ok t =>
      match t.resolve target with
      | .ok l => set (t.put l (.file content executable))
      | .error kind => throw (.file ⟨kind, target.text⟩)

/-- The problems that copying one entry leads to. A fault that the system does not report ends the
whole copy. -/
def problemsOf (source target : Path) (copy : Step CopyFault Unit) :
    Step CopyFault (List CopyProblem) :=
  tryCatch (do copy; return []) fun fault =>
    match fault with
    | .entries problems => return problems
    | .file fault =>
      if fault.isReported then return [.entry source.text target.text fault.message]
      else throw (.file fault)

/-- Copies the entries of a directory into another one. The budget bounds the depth of the
directories. -/
def copyTree : Nat → Path → Path → Step CopyFault Unit
  | 0, source, _ => throw (.file ⟨.tooDeep, source.text⟩)
  | budget + 1, source, target => do
    let t ← get
    match t.stat source with
    | .error kind => throw (.file ⟨kind, source.text⟩)
    | .ok (_, .file ..) => throw (.file ⟨.notDirectory, source.text⟩)
    | .ok (l, .directory) =>
      let entries := (t.namesIn l).map fun name => (name, t.entry? (l.child name))
      (makeFromTop target.names.length target).adapt CopyFault.file
      let problems ← entries.mapM fun (name, entry) =>
        let child := source.child name
        let copied := target.child name
        let copy := match entry with
          | some .directory => copyTree budget child copied
          | _ => copyFile child copied
        problemsOf child copied copy
      if problems.any (!·.isEmpty) then throw (.entries problems.flatten)

/-- Copies a directory to the location of some names below another directory, which is there. A
directory inside the one that is copied would get deeper as long as it is copied. -/
def copyDirectory (source holder : Path) (names : List String) : Step CopyFault Unit := do
  let t ← get
  match t.resolve source, t.resolve holder with
  | .ok s, .ok h =>
    let copied : Location := ⟨h.place, h.names ++ names⟩
    if copied != s && copied.isWithin s then throw (.file ⟨.tooDeep, source.text⟩)
  | _, _ => pure ()
  copyTree (t.entries.length + 1) source (holder.descend names)

end FileTree

end LintReport
