import LintReport.FileTree

/-!
# Making directories

A directory may be made together with the directories above it. A step that fails keeps what has
been made before.

## Main definitions

* `FileTree.Step`: operations on files, which may fail.
* `FileTree.makeWithParents`: tries the directory first, and those above it only if they are
  missing.
* `FileTree.makeFromTop`: makes the missing directories from the top downwards.
* `FileTree.place`: puts an entry at a path, whatever is missing above it.
-/

namespace LintReport.FileTree

/-- An operation on files. What was done before a fault stays done. -/
abbrev Step (ε : Type) := ExceptT ε (StateM FileTree)

/-- Makes one directory, or leaves it if it is there. -/
def ensureOne (p : Path) : Step FileFault Unit := do
  match (← get).makeDirectory p with
  | .ok t => set t
  | .error kind => if !(← get).isDirectory p then throw ⟨kind, p.text⟩

/-- Makes a directory, or leaves it if it is there. Only if something above it is missing, the
directory that holds it is made first; the budget is the number of directories that may be missing.
-/
def makeWithParents : Nat → Path → Step FileFault Unit
  | 0, p => throw ⟨.tooDeep, p.text⟩
  | budget + 1, p => do
    match (← get).makeDirectory p with
    | .ok t => set t
    | .error .notFound =>
      if p.names.isEmpty then throw ⟨.notFound, p.text⟩
      makeWithParents budget p.parent
      ensureOne p
    | .error kind => if !(← get).isDirectory p then throw ⟨kind, p.text⟩

/-- Makes a directory after the missing directories above it, or leaves it if it is there. A file
that stands in the place of one of those above is only noticed below it. -/
def makeFromTop : Nat → Path → Step FileFault Unit
  | 0, p => ensureOne p
  | above + 1, p => do
    if 1 < p.names.length && !(← get).pathExists p.parent then
      tryCatch (makeFromTop above p.parent) fun fault =>
        if fault.kind == .exists then pure () else throw fault
    ensureOne p

/-- The tree after an entry has been put at a path, with the directories that lead there. -/
def place (t : FileTree) (p : Path) (e : Entry) : FileTree :=
  let t := (makeWithParents (p.names.length + 1) p.parent |>.run t).2
  match t.resolve p with
  | .ok l => if e == .directory && t.isDirectory p then t else t.put l e
  | .error _ => t

end LintReport.FileTree
