import LintReport.Json.Basic

/-!
# Issues

An issue is one violation of one rule at one place of one file. Its severity is kept as the text
that came in; `Severity` says what that text counts as.

## Main definitions

* `Severity`: error, warning or hint.
* `Issue`: one violation.
* `Issue.toJson`: an issue as a JSON object.
-/

namespace LintReport

/-- How bad a violation is. -/
inductive Severity
  | error
  | warning
  | hint
deriving DecidableEq, Repr

namespace Severity

/-- The word for a severity. -/
def text : Severity → String
  | error => "error"
  | warning => "warning"
  | hint => "hint"

/-- What a text counts as. Whatever is neither an error nor a warning is a hint. -/
def ofText (s : String) : Severity :=
  if s == "error" then error else if s == "warning" then warning else hint

@[simp] theorem ofText_text (s : Severity) : ofText s.text = s := by
  cases s <;> rfl

end Severity

/-- One violation of one rule. -/
structure Issue where
  ruleId : String
  severity : String
  message : String
  file : String
  line : Int
  column : Int
  /-- The source text that violates the rule, where it is known. -/
  code : Option String
deriving DecidableEq, Repr

namespace Issue

/-- What the severity of an issue counts as. -/
def level (issue : Issue) : Severity := Severity.ofText issue.severity

/-- Whether an issue counts as an error. -/
def isError (issue : Issue) : Bool := issue.level == .error

/-- An issue as an object with the engine's keys. The code has a key only where it is known. -/
def toJson (issue : Issue) : Json :=
  .obj ([("ruleId", .str issue.ruleId), ("severity", .str issue.severity),
    ("message", .str issue.message), ("file", .str issue.file), ("line", .int issue.line),
    ("column", .int issue.column)] ++ (issue.code.map fun c => ("code", .str c)).toList)

end Issue

end LintReport
