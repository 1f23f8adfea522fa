import LintReport.Issue.Tally

/-!
# Workflow commands

A workflow run on the code host reads commands from the output of its steps: a level, named
properties and a message between double colons. It also reads results that a step appends to a file.
Line breaks and percent signs are escaped everywhere; colons and commas also in properties.

## Main definitions

* `WorkflowCommand`, `WorkflowCommand.render`: a command and its line.
* `Issue.command`: the command that shows an issue beside the code.
* `Issue.workflowLines`: the commands of all issues and a summary for people.
* `Issue.stepOutput`: the results of the step.
-/

namespace LintReport

/-- A workflow command. -/
structure WorkflowCommand where
  level : String
  properties : List (String × String)
  message : String
deriving DecidableEq, Repr

namespace WorkflowCommand

/-- One character of a message. -/
def escapeMessageChar (c : Char) : List Char :=
  if c == '%' then "%25".toList
  else if c == '\r' then "%0D".toList
  else if c == '\n' then "%0A".toList
  else [c]

/-- One character of a property. -/
def escapePropertyChar (c : Char) : List Char :=
  if c == ':' then "%3A".toList
  else if c == ',' then "%2C".toList
  else escapeMessageChar c

/-- A message as it stands in a command. -/
def escapeMessage (s : String) : String := String.ofList (s.toList.flatMap escapeMessageChar)

/-- A property as it stands in a command. -/
def escapeProperty (s : String) : String := String.ofList (s.toList.flatMap escapePropertyChar)

/-- The line of a command. -/
def render (command : WorkflowCommand) : String :=
  let properties := command.properties.map fun (name, value) => name ++ "=" ++ escapeProperty value
  "::" ++ command.level ++ " " ++ ",".intercalate properties ++ "::" ++
    escapeMessage command.message

end WorkflowCommand

/-- The level of the command that shows a severity: there is none for hints, so they are shown as
warnings. -/
def Severity.commandLevel : Severity → String
  | error => "error"
  | _ => "warning"

/-- The tag of a severity in the summary. -/
def Severity.tag : Severity → String
  | error => "[ERROR]"
  | warning => "[WARN]"
  | hint => "[HINT]"

namespace Issue

/-- The command that shows an issue beside the code. -/
def command (issue : Issue) : WorkflowCommand where
  level := issue.level.commandLevel
  properties :=
    [("file", issue.file), ("line", toString issue.line), ("col", toString issue.column)]
  message := issue.ruleId ++ ": " ++ issue.message

/-- The line of the command of an issue. -/
def commandLine (issue : Issue) : String := issue.command.render

/-- The line around the title of the summary. -/
def rule : String := "".pushn '=' 40

/-- The lines of one issue in the summary. -/
def summaryLines (issue : Issue) : List String :=
  [s!"{issue.level.tag} {issue.file}:{issue.line}", s!"[{issue.ruleId}] {issue.message}", ""]

/-- The summary: counts, then every issue. -/
def workflowSummary (issues : List Issue) : List String :=
  let counts := count issues
  ["", rule, "Tempo Lint Results", rule, s!"Total issues: {issues.length}",
    s!"Errors: {counts.error}", s!"Warnings: {counts.warning}", s!"Hints: {counts.hint}", ""] ++
  if issues.isEmpty then ["No lint issues found!"] else issues.flatMap summaryLines

/-- A command for each issue, and the summary. -/
def workflowLines (issues : List Issue) : List String :=
  issues.map commandLine ++ workflowSummary issues

/-- The results of the step: how many issues there are, and whether one is an error. -/
def stepOutput (issues : List Issue) : String :=
  s!"total_issues={issues.length}\nhas_errors={issues.any isError}\n"

end Issue

end LintReport
