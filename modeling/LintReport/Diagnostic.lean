/-!
# Diagnostics

Messages for people. In a workflow run a warning or an error is written as a workflow command, and
elsewhere behind the name of the program.

## Main definitions

* `Diagnostic`: a warning, an error or a plain remark.
* `Diagnostic.line`: its line.
-/

namespace LintReport

/-- A message for people. -/
inductive Diagnostic
  | warning (message : String)
  | error (message : String)
  | remark (message : String)
deriving DecidableEq, Repr

/-- The line of a message. `inWorkflow` says whether it is read by a workflow run. -/
def Diagnostic.line (inWorkflow : Bool) : Diagnostic → String
  | .warning message =>
    if inWorkflow then "::warning::" ++ message else "[tempo-lints] warning: " ++ message
  | .error message =>
    if inWorkflow then "::error::" ++ message else "[tempo-lints] error: " ++ message
  | .remark message => message

end LintReport
