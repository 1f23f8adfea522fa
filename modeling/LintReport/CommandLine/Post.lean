import LintReport.CommandLine.Ending
import LintReport.Comment.Body
import LintReport.Comment.Results
import LintReport.GitHub.Comments

/-!
# The command that comments

`tempo-lints-comment` puts the issues of a results file into a comment on a pull request, or prints
the comment. The arguments are read first, then the settings and the results; only then the code
host is asked for anything.

## Main definitions

* `Post.Arguments`, `Post.grammar`.
* `Post.prepare`: all that is done before the code host is asked.
* `Post.execute`, `Post.run`: the command with values and with arguments.
-/

namespace LintReport.CommandLine.Post

/-- The number of issues that the comment is to name. -/
inductive Total
  /-- As many as there are in the results. -/
  | counted
  | given (count : Int)
  /-- None: the option is there without a value. -/
  | unnamed
deriving DecidableEq, Repr

/-- What the command is told. -/
structure Arguments where
  repo : Option String := none
  number : Option Int := none
  results : String := ""
  total : Total := .counted
  server : String := ""
  sha : String := ""
  printsOnly : Bool := false
deriving DecidableEq, Repr

/-- The grammar of the command. -/
def grammar : Grammar Arguments where
  program := "tempo-lints-comment"
  about := "Post Tempo lint results as a PR comment (updates the previous one in place)."
  options := [
    .helpRule,
    { names := ["--repo"], required := true, about := "owner/repo",
      effect := .text fun value a => { a with repo := value } },
    { names := ["--pr"], required := true, about := "PR number",
      effect := .integer fun n a => { a with number := n } },
    { names := ["--results"], about := "Path to tempo-lints --json output",
      effect := .text fun value a => { a with results := value.getD "" } },
    { names := ["--total"], about := "Total issue count (default: issues in --results)",
      effect := .integer fun n a => { a with total := (n.map .given).getD .unnamed } },
    { names := ["--server"], about := "GitHub server URL (default: env GITHUB_SERVER_URL)",
      effect := .text fun value a => { a with server := value.getD "" } },
    { names := ["--sha"], about := "Git SHA for blob links (default: env GITHUB_SHA)",
      effect := .text fun value a => { a with sha := value.getD "" } },
    { names := ["--dry-run"], about := "Print the comment body instead of posting it",
      effect := .flag fun a => { a with printsOnly := true } }]
  initial := {}

/-- Why the command ended in a fault. -/
inductive Fault
  | results (fault : TextFault)
  | output (limit : Json.Limit)
  | api (fault : GitHub.ApiFault)
deriving DecidableEq, Repr

/-- What is to be posted, and how the code host is reached. -/
structure Posting where
  pullRequest : GitHub.PullRequest
  body : String
  token : String
  apiUrl : String
  timeout : Binary64
deriving DecidableEq, Repr

/-- How the code host is reached: what carries requests, and what is added to a wait. -/
structure Link (σ : Type) where
  carry : GitHub.Transport σ
  jitter : Quantity := .float (.zero false)

/-- The issues in the results file, or none after what is wrong with it has been said. -/
def loadIssues (results : String) : Run Fault (Option (List Issue)) := do
  if results.isEmpty then return some []
  let p := Path.parse results
  match ← (Results.load p).attempt with
  | .ok issues => return some issues
  | .error (.text (.file fault)) =>
    Run.tell (.error s!"failed to read lint output file {p}: {fault.message}")
    return none
  | .error (.text .notUtf8) => throw (.results .notUtf8)
  | .error (.output (.beyond limit)) => throw (.output limit)
  | .error (.output fault) =>
    Run.tell (.error s!"lint output in {p}: {fault.message}")
    Run.note (((← Run.files).readText p).toOption.getD "")
    return none

/-- The comment for issues. -/
def commentBody (env : Environment) (a : Arguments) (issues : List Issue) : String :=
  let context := RepoContext.resolve env (some a.server) a.repo (some a.sha)
  let context := { context with repo := a.repo.getD "" }
  match a.total with
  | .counted => Comment.body context issues issues.length
  | .given count => Comment.body context issues count
  | .unnamed => Comment.bodyWithoutTotal context issues

/-- All that is done before the code host is asked: either the command ends, or there is something
to post. -/
def prepare (env : Environment) (a : Arguments) : Run Fault (Ending ⊕ Posting) := do
  let access := do
    let settings ← Settings.ofEnvironment env
    return (settings, ← if a.printsOnly then .ok "" else settings.requireToken)
  match access with
  | .error fault => return .inl (← refuse fault)
  | .ok (settings, token) =>
    match ← loadIssues a.results with
    | none => return .inl (.returned 1)
    | some issues =>
      let body := commentBody env a issues
      if a.printsOnly then
        Run.print body
        return .inl (.returned 0)
      else
        return .inr {
          pullRequest := ⟨a.repo, a.number⟩, body := body, token := token
          apiUrl := settings.apiUrl, timeout := settings.timeout }

/-- Posts a comment. -/
def deliver {σ : Type} (link : Link σ) (p : Posting) : GitHub.Talk σ GitHub.Upserted :=
  let client : GitHub.Client σ :=
    { carry := link.carry, jitter := link.jitter, token := p.token, apiUrl := p.apiUrl
      timeout := .float p.timeout }
  client.upsert p.pullRequest Comment.marker p.body

/-- Says what became of a comment. -/
def conclude : Except GitHub.ApiFault GitHub.Upserted → Run Fault Ending
  | .ok outcome => do
    match outcome with
    | .updated id => Run.print s!"Updated existing comment {id}."
    | .created _ => Run.print "Created new comment."
    Run.print "PR comment posted successfully!"
    return .returned 0
  | .error fault => do
    if fault.status?.isNone then throw (.api fault)
    Run.tell (.error s!"Error posting comment: {fault.message}")
    return .returned 1

/-- The state of the command: what has been done here, and what has been said to the code host. -/
abbrev World (σ : Type) := Session × GitHub.Conversation σ

/-- The command with its values. -/
def execute {σ : Type} (link : Link σ) (env : Environment) (a : Arguments) (w : World σ) :
    Except Fault Ending × World σ :=
  match (prepare env a).run.run w.1 with
  | (.error fault, s) => (.error fault, s, w.2)
  | (.ok (.inl ending), s) => (.ok ending, s, w.2)
  | (.ok (.inr posting), s) =>
    let (outcome, c) := (deliver link posting).run.run w.2
    let s := { s with diagnostics := s.diagnostics ++ String.join (c.diagnostics.map (· ++ "\n")) }
    let (ending, s) := (conclude outcome).run.run s
    (ending, s, c)

/-- The command with its arguments. -/
def run {σ : Type} (link : Link σ) (env : Environment) (arguments : List String) (w : World σ) :
    Except Fault Ending × World σ :=
  match grammar.read arguments with
  | .ok values => execute link env values w
  | _ =>
    let (ending, s) := (grammar.run arguments fun _ => pure (.returned 0)).run.run w.1
    (ending, s, w.2)

end LintReport.CommandLine.Post
