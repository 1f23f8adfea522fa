import LintReport.Issue.Output
import LintReport.Rules.Catalogue
import LintReport.Session

/-!
# Results files

A scan can leave its issues in a file, as the JSON that it prints. A missing file stands for no
issues, and so does a blank one.

## Main definitions

* `Results.load`: the issues in a results file.
-/

namespace LintReport

/-- Why a results file holds no issues. -/
inductive ResultsFault
  | text (fault : TextFault)
  | output (fault : OutputFault)
deriving DecidableEq, Repr

namespace Results

/-- The issues in the text of a results file. -/
def ofText (text : String) : Except OutputFault (List Issue) :=
  if Text.isBlankText text then .ok []
  else (Issue.readOutput text none).map Selection.issues

/-- The issues in the results file at a path. -/
def load (p : Path) : Run ResultsFault (List Issue) := do
  let t ← Run.files
  if ← Run.ofExcept ((t.hasFile p).mapError fun fault => ResultsFault.text (.file fault)) then
    let text ← Run.ofExcept ((t.readText p).mapError ResultsFault.text)
    Run.ofExcept ((ofText text).mapError ResultsFault.output)
  else
    Run.tell (.warning s!"results file not found: {p}; treating as no issues")
    return []

end Results

end LintReport
