import LintReport.Diagnostic
import LintReport.Engine.Command
import LintReport.Issue.Exclusion
import LintReport.Json.Printer
import LintReport.WorkflowCommand

/-!
# The report of a scan

The output of the engine is read, issues of rules that are not allowed or are excluded are dropped,
and the rest is shown as JSON or as workflow commands. Errors among the rest decide the exit code.
An output that holds no issues is passed on as it is, but for one that the reader has no room for:
that one has no report.

## Main definitions

* `Report`: what is said, printed and returned.
* `Report.select`: the issues that remain, with all warnings.
* `Report.ofResult`: the report of a run of the engine.
-/

namespace LintReport

/-- What a scan says, prints and returns. -/
structure Report where
  code : Int
  diagnostics : List Diagnostic := []
  /-- The lines of the output. -/
  output : List String := []
  /-- The results for the file of the workflow step. -/
  stepOutput : Option String := none
deriving DecidableEq, Repr

namespace Report

/-- The issues of an output that are allowed and not excluded. An empty list of allowed rules allows
every rule. -/
def select (text : String) (allowed excluded : List String) : Except OutputFault Selection := do
  let read ← Issue.readOutput text (if allowed.isEmpty then none else some allowed)
  let rest := Issue.exclude excluded read.issues
  return ⟨rest.issues, read.warnings ++ rest.warnings⟩

/-- The exit code for issues: one if any is an error. -/
def codeFor (issues : List Issue) : Int := if issues.any Issue.isError then 1 else 0

/-- The report of a selection. -/
def ofSelection (o : ScanOptions) (s : Selection) : Report where
  code := codeFor s.issues
  diagnostics := s.warnings.map fun w => .warning w.message
  output :=
    if o.inWorkflow then Issue.workflowLines s.issues
    else [(Json.arr (s.issues.map Issue.toJson)).pretty]
  stepOutput := if o.inWorkflow then some (Issue.stepOutput s.issues) else none

/-- The report of a run of the engine, unless the reader has no room for its output. -/
def ofResult (result : Engine.Result) (o : ScanOptions) (allowed : List String) :
    Except Json.Limit Report :=
  if Text.isBlankText result.output then .ok { code := result.code }
  else
    match select result.output allowed o.excluded with
    | .error (.beyond limit) => .error limit
    | .error fault =>
      .ok { code := result.code
            diagnostics := [.warning fault.message]
            output := [result.output] }
    | .ok s => .ok (ofSelection o s)

end Report

end LintReport
