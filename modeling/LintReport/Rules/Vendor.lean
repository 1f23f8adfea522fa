import LintReport.Engine.Configuration
import LintReport.FileTree.Copy
import LintReport.Rules.Language
import LintReport.Session
import LintReport.Text.Utf8

/-!
# Vendoring rules

A project may keep its own copy of the rules of a selection, with a configuration that points to it.

## Main definitions

* `Rules.vendor`: copies the rules into a project.
* `VendorFault`: why it did not finish.
-/

namespace LintReport

/-- Why rules were not copied completely. -/
inductive VendorFault
  /-- The text is no selector. -/
  | invalidLanguage (text : String)
  | file (fault : FileFault)
  | copy (fault : CopyFault)
  | configuration (fault : ReadFault)
deriving DecidableEq, Repr

namespace Rules

/-- How many directories may be missing on the way to a project. -/
def missingLimit : Nat := 980

/-- Copies one directory of the rules, if it is there. -/
def vendorEntry (root target : Path) (names : List String) : Run VendorFault Unit := do
  let source := root.descend names
  if ← Run.ofExcept (((← Run.files).hasDirectory source).mapError VendorFault.file) then
    Run.onFiles ((FileTree.copyDirectory source target ("rules" :: names)).adapt VendorFault.copy)
    Run.tell (.remark ("Copied rules/" ++ "/".intercalate names ++ "/"))
  else Run.tell (.warning s!"no rules found at {source}; skipping")

/-- Writes a text file. -/
def writeText (p : Path) (text : String) : Run VendorFault Unit := do
  match (← Run.files).write p (Text.Utf8.encode text) with
  | .ok t => Run.setFiles t
  | .error kind => throw (.file ⟨kind, p.text⟩)

/-- Copies the rules of a selection into a project and writes the configuration. Returns the path of
the configuration. -/
def vendor (language : String) (project root : Path) : Run VendorFault Path := do
  let target := project.child LanguageSelector.vendorDir
  Run.onFiles ((FileTree.makeWithParents missingLimit target).adapt VendorFault.file)
  Run.tell (.remark s!"Vendoring Tempo lints to {target}...")
  match LanguageSelector.ofText? language with
  | none => throw (.invalidLanguage language)
  | some selector =>
    for names in selector.entriesSharedFirst do
      vendorEntry root target names
    let path := project.child Configuration.fileName
    let text ← Run.ofExcept
      ((Configuration.generate selector.vendoredDirs).mapError VendorFault.configuration)
    writeText path text
    Run.tell (.remark s!"Created {Configuration.fileName}")
    Run.tell (.remark "")
    Run.tell (.remark s!"Done! Run: ast-grep scan --config {Configuration.fileName}")
    return path

end Rules

end LintReport
