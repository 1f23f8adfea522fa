import LintReport.Environment
import LintReport.Text.Blank
import LintReport.Text.Percent

/-!
# Links to source files

A place in a file is shown as code, and linked to the file on the code host where the repository and
the commit are known.

## Main definitions

* `RepoContext`: the server, the repository and the commit; `RepoContext.resolve` takes what is not
  given from the environment.
* `RepoContext.blobUrl?`: the address of a file.
* `RepoContext.locationLink`: a place in a file as Markdown.
-/

namespace LintReport

/-- Where the files of a run can be seen: a server, a repository and a commit. -/
structure RepoContext where
  server : String := ""
  repo : String := ""
  sha : String := ""
deriving DecidableEq, Repr

namespace RepoContext

/-- The context of a run: what is given, or else what the environment says. -/
def resolve (env : Environment) (server repo sha : Option String) : RepoContext where
  server := Text.dropTrailing '/'
    ((Environment.nonEmpty server <|> env.nonEmpty? "GITHUB_SERVER_URL").getD "https://github.com")
  repo := Text.trim ((Environment.nonEmpty repo <|> env.nonEmpty? "GITHUB_REPOSITORY").getD "")
  sha := Text.trim ((Environment.nonEmpty sha <|> env.nonEmpty? "GITHUB_SHA").getD "")

/-- A path without blanks around it and without one leading `./`. -/
def normalizePath (path : String) : String :=
  match Text.trimChars path.toList with
  | '.' :: '/' :: rest => String.ofList rest
  | cs => String.ofList cs

/-- A line number that can be pointed at. -/
def positiveLine? (line : Option Int) : Option Int := line.filter fun n => 0 < n

/-- The address of a file, and of a line in it, if all its parts are known. -/
def blobUrl? (context : RepoContext) (path : String) (line : Option Int) : Option String :=
  let server := Text.dropTrailing '/' context.server
  let repo := Text.trim context.repo
  let sha := Text.trim context.sha
  let path := normalizePath path
  if server.isEmpty || repo.isEmpty || sha.isEmpty || path.isEmpty then none
  else
    let anchor := match positiveLine? line with
      | some n => "#L" ++ toString n
      | none => ""
    some (server ++ "/" ++ repo ++ "/blob/" ++ sha ++ "/" ++ Text.percentEncode path ++ anchor)

/-- A place in a file as Markdown: its path and line as code, linked where there is an address. -/
def locationLink (context : RepoContext) (path : String) (line : Option Int) : String :=
  let trimmed := Text.trim path
  let path := if trimmed.isEmpty then "unknown" else trimmed
  let label := match positiveLine? line with
    | some n => path ++ ":" ++ toString n
    | none => path
  match if path == "unknown" then none else context.blobUrl? path line with
  | none => "`" ++ label ++ "`"
  | some url => "[`" ++ label ++ "`](" ++ url ++ ")"

end RepoContext

end LintReport
