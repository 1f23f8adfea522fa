import LintReport.Issue.Basic
import LintReport.Text.Blank
import LintReport.Text.Line

/-!
# From an engine match to an issue

Most fields of a match are optional. A field that is missing, or whose value cannot be used, takes a
default, and its name is kept, so that an issue can always be made and it can always be seen what is
made up in it.

## Main definitions

* `Field`: the fields that have a default.
* `NormalizedIssue`: an issue with the fields that took their default.
* `Issue.normalize`: the issue of a match, given by the members of its object.
* `Severity.classify`: the severity that a JSON value means.
-/

namespace LintReport

/-- The fields of an issue that take a default when they cannot be read. -/
inductive Field
  | ruleId
  | severity
  | message
  | file
  | line
  | column
deriving DecidableEq, Repr

/-- The key of a field. -/
def Field.key : Field → String
  | .ruleId => "ruleId"
  | .severity => "severity"
  | .message => "message"
  | .file => "file"
  | .line => "line"
  | .column => "column"

/-- An issue, and the fields that took their default, in the order of `Field`. -/
structure NormalizedIssue where
  issue : Issue
  fallbacks : List Field
deriving DecidableEq, Repr

/-- Whether any field took its default. -/
def NormalizedIssue.defaulted (n : NormalizedIssue) : Bool := !n.fallbacks.isEmpty

/-- The severity that a JSON value means: none unless it is a string. -/
def Severity.classify : Json → Option Severity
  | .str s => some (Severity.ofText s)
  | _ => none

namespace Issue

/-! ### Usable values -/

/-- A string that holds more than blanks. -/
def usableText? (v : Option Json) : Option String :=
  match v with
  | some (.str s) => if Text.isBlankText s then none else some s
  | _ => none

/-- An integer that can be a line or a column: at least one. -/
def usablePosition? (v : Option Json) : Option Int :=
  match v with
  | some (.int i) => if 1 ≤ i then some i else none
  | _ => none

/-- The line or column where a match starts: the one inside its range, or else the one beside it. -/
def startPosition? (raw : List (String × Json)) (key : String) : Option Int :=
  let inRange := do
    let range ← Json.lookup? "range" raw
    let start ← range.field? "start"
    usablePosition? (start.field? key)
  inRange <|> usablePosition? (Json.lookup? key raw)

/-- The first line of the note of a match. -/
def noteLine? (raw : List (String × Json)) : Option String := do
  let note ← usableText? (Json.lookup? "note" raw)
  usableText? (some (.str (Text.firstLine (Text.trim note))))

/-- The source text of a match. -/
def sourceCode? (raw : List (String × Json)) : Option String :=
  let text? key := (Json.lookup? key raw).bind Json.text?
  (text? "lines" <|> text? "code").map Text.trim

/-! ### Normalization -/

/-- The issue of a match. -/
def normalize (raw : List (String × Json)) : NormalizedIssue :=
  let ruleId := usableText? (Json.lookup? "ruleId" raw)
  let severity := (Json.lookup? "severity" raw).bind Severity.classify
  let message := usableText? (Json.lookup? "message" raw)
  let file := usableText? (Json.lookup? "file" raw)
  let line := startPosition? raw "line"
  let column := startPosition? raw "column"
  let missing := [(Field.ruleId, ruleId.isNone), (.severity, severity.isNone),
    (.message, message.isNone), (.file, file.isNone), (.line, line.isNone),
    (.column, column.isNone)]
  { issue :=
      { ruleId := Text.trim (ruleId.getD "unknown")
        severity := (severity.getD .warning).text
        message := message.getD ((noteLine? raw).getD "Lint issue")
        file := file.getD "unknown"
        line := line.getD 1
        column := column.getD 1
        code := sourceCode? raw }
    fallbacks := (missing.filter (·.2)).map (·.1) }

end Issue

end LintReport
