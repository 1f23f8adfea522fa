import LintReport.Issue.Tally
import LintReport.Markdown.Badge
import LintReport.Markdown.Details
import LintReport.Markdown.Link
import LintReport.Text.Collection
import LintReport.Text.Markup
import LintReport.Text.Plural

/-!
# The comment on a pull request

The comment counts the issues by severity, lists them by rule with links to the code, and lists them
again by file. Long lists are cut, and a last bullet says how many issues were left out. A marker
that is not shown when the comment is read lets a later run find the comment.

## Main definitions

* `Comment.marker`: the marker.
* `Comment.ruleBlock`, `Comment.fileBlock`: the blocks of one rule and of one file.
* `Comment.ruleSection`, `Comment.fileSection`, `Comment.severityTable`: the parts of a comment.
* `Comment.body`, `Comment.bodyWithoutTotal`: the whole comment.
-/

namespace LintReport.Comment

/-- The markup comment by which a comment of an earlier run is known. -/
def marker : String := "<!-- tempo-lints-comment -->"

/-- Where the tool comes from. -/
def projectUrl : String := "https://github.com/stripe/tempo-lints"

/-- How many issues the block of a rule shows. -/
def issuesPerRule : Nat := 10

/-- How many issues the block of a file shows. -/
def issuesPerFile : Nat := 5

/-- How many files have a block. -/
def filesShown : Nat := 10

/-- The last lines of every comment. -/
def footer : List String := ["---", s!"*Posted by [Tempo Lints]({projectUrl})* {marker}"]

/-! ### Blocks -/

/-- A count with its noun. -/
def counted (count : Nat) (noun : String) : String := s!"{count} {Text.pluralize count noun}"

/-- The bullet that says how many issues are left out, if any. -/
def moreLine (shown total : Nat) : List String :=
  if shown < total then
    let left := total - shown
    [s!"- _...and {left} more " ++ Text.pluralize left "issue" ++ "_"]
  else []

/-- A name and the size of its group, as the summary of a block. -/
def groupSummary (name : String) (size : Nat) : String :=
  "<code>" ++ Text.escapeMarkup name ++ "</code> (" ++ counted size "issue" ++ ")"

/-- The block of a group: a bullet for each of the first `limit` issues, and one for the rest. -/
def groupBlock (limit : Nat) (bullet : Issue → String) (group : String × List Issue) : Details where
  body :=
    let shown := group.2.take limit
    shown.map bullet ++ moreLine shown.length group.2.length
  summary := groupSummary group.1 group.2.length

/-- The bullet of an issue in the block of its rule. -/
def ruleBullet (context : RepoContext) (issue : Issue) : String :=
  s!"- {context.locationLink issue.file (some issue.line)} — {issue.message}"

/-- The bullet of an issue in the block of its file. -/
def fileBullet (issue : Issue) : String :=
  s!"- Line {issue.line}: {Severity.iconOf issue.severity} {issue.severity} `{issue.ruleId}`"

/-- The block of a rule. -/
def ruleBlock (context : RepoContext) (group : String × List Issue) : Details :=
  groupBlock issuesPerRule (ruleBullet context) group

/-- The block of a file. -/
def fileBlock (group : String × List Issue) : Details :=
  groupBlock issuesPerFile fileBullet group

/-- Blocks with an empty line after each. -/
def blockLines (blocks : List Details) : List String :=
  blocks.flatMap fun block => block.lines ++ [""]

/-! ### Parts -/

/-- The number of issues of each severity as a table. -/
def severityTable (issues : List Issue) : List String :=
  let counts := Issue.count issues
  let row (severity : Severity) (count : Nat) :=
    s!"| {severity.icon} {Severity.labelOf severity.text} | {count} |"
  ["| Severity | Count |", "|----------|-------|", row .error counts.error,
    row .warning counts.warning, row .hint counts.hint]

/-- The issues of every rule, the rule with most issues first. -/
def ruleSection (context : RepoContext) (issues : List Issue) : List String :=
  ["### Issues by Rule", ""] ++
    blockLines ((ranked (Issue.byRule issues)).map (ruleBlock context))

/-- The issues of the files with most issues. -/
def fileSection (issues : List Issue) : List String :=
  let files := ranked (Issue.byFile issues)
  let cut :=
    if filesShown < files.length then
      [s!"_Showing {filesShown} of {files.length} files._", ""]
    else []
  ["### Issues by File", ""] ++ cut ++ blockLines ((files.take filesShown).map fileBlock)

/-- The lines of a comment when there are no issues. -/
def successLines : List String :=
  [marker, "## ✅ Tempo Lint Results", "", "No lint issues found! Great job! 🎉", ""] ++ footer

/-- The headline of a comment: how many issues there are, if that is known, in how many files. -/
def headline (total : Option Int) (files : Nat) : String :=
  let noun := (total.map fun n => Text.pluralize n "issue").getD "issues"
  "Found **" ++ Text.orEmptyList (total.map toString) ++ "** " ++ noun ++
    s!" in **{files}** " ++ Text.pluralize files "file" ++ "."

/-- The lines of a comment about issues. `total` is the number in the headline. -/
def issueLines (context : RepoContext) (issues : List Issue) (total : Option Int) : List String :=
  let details :=
    if issues.isEmpty then ["_Issue details are unavailable for this run._", ""]
    else ruleSection context issues ++ fileSection issues
  [marker, "## 🔍 Tempo Lint Results", "", "### Summary", "",
      headline total (Issue.byFile issues).length, ""] ++
    severityTable issues ++ [""] ++ details ++ footer

/-- A comment. `total` is the number of issues found, which may be larger than the number of those
that are given. -/
def body (context : RepoContext) (issues : List Issue) (total : Int) : String :=
  "\n".intercalate (if total == 0 then successLines else issueLines context issues (some total))

/-- A comment that does not say how many issues were found. -/
def bodyWithoutTotal (context : RepoContext) (issues : List Issue) : String :=
  "\n".intercalate (issueLines context issues none)

end LintReport.Comment
