import LintReport.Issue.Basic
import LintReport.Text.Blank
import LintReport.Text.Case

/-!
# Severities in a comment

## Main definitions

* `Severity.icon`: the picture of a severity, and `Severity.iconOf` that of a text.
* `Severity.labelOf`: the heading for a severity.
-/

namespace LintReport.Severity

/-- The picture of a severity. -/
def icon : Severity → String
  | error => "❌"
  | warning => "⚠️"
  | hint => "💡"

/-- The picture of a text: letter case and blanks around it do not matter, and what is no severity
is shown as a hint. -/
def iconOf (s : String) : String := (ofText (Text.lower (Text.trim s))).icon

/-- The heading for a text: a plural for a severity, and otherwise the text with a capital. -/
def labelOf (s : String) : String :=
  if s == "error" then "Errors"
  else if s == "warning" then "Warnings"
  else if s == "hint" then "Hints"
  else Text.capitalize s

end LintReport.Severity
