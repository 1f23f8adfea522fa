import LintReport.GitHub.Client
import LintReport.Json.Display
import LintReport.Text.Collection

/-!
# Comments on pull requests

Comments are listed page by page. The comment of an earlier run is known by a marker in its body; it
is changed if it is there, and otherwise a comment is created.

## Main definitions

* `PullRequest`: which pull request is meant.
* `findComment`: the first comment with a marker.
* `Client.listComments`: the comments of a pull request.
* `Client.upsert`: changes the marked comment or creates one.
-/

namespace LintReport.GitHub

/-- A pull request: its repository and its number. What is not known stands in paths as an empty
list. -/
structure PullRequest where
  repo : Option String
  number : Option Int
deriving DecidableEq, Repr

/-- The path of the issues of a repository. -/
def PullRequest.issuesPath (pr : PullRequest) : String :=
  "/repos/" ++ Text.orEmptyList pr.repo ++ "/issues"

/-- The path of the comments of a pull request. -/
def PullRequest.commentsPath (pr : PullRequest) : String :=
  pr.issuesPath ++ "/" ++ Text.orEmptyList (pr.number.map toString) ++ "/comments"

/-- The path of a comment. -/
def PullRequest.commentPath (pr : PullRequest) (id : Int) : String :=
  pr.issuesPath ++ s!"/comments/{id}"

/-- The text of the body of a comment. A missing body has none. -/
def bodyText (comment : Json) : String :=
  match comment.field? "body" with
  | none => ""
  | some v => if v.isFalsy then "" else v.displayText

/-- The number of a comment that carries a marker. -/
def markedId? (marker : String) (comment : Json) : Option Int :=
  if Text.contains marker (bodyText comment) then (comment.field? "id").bind Json.int? else none

/-- Whether a value is an object. -/
def isObject : Json → Bool
  | .obj _ => true
  | _ => false

/-- The number of the first comment that carries a marker and has a number. Elements after it are
not looked at; those before it have to be objects. -/
def findIn (marker : String) : List Json → Except ApiFault (Option Int)
  | [] => .ok none
  | comment :: rest =>
    if isObject comment then
      match markedId? marker comment with
      | some id => .ok (some id)
      | none => findIn marker rest
    else .error .notComment

/-- The number of the first comment in a listing that carries a marker. -/
def findComment (marker : String) : Json → Except ApiFault (Option Int)
  | .arr comments => findIn marker comments
  | .obj members => if members.isEmpty then .ok none else .error .notComment
  | .str s => if s.isEmpty then .ok none else .error .notComment
  | _ => .error .notListing

/-- Where a listing stops. -/
structure Paging where
  perPage : Int := 100
  maxPages : Int := 20
  /-- A marker after whose comment no further page is needed. -/
  stopAt : Option String := none
deriving DecidableEq, Repr

/-- What became of the comment. -/
inductive Upserted
  | updated (id : Int)
  /-- The number that the code host gave, if it gave one; a truth value also counts. -/
  | created (id : Option Json)
deriving Repr

namespace Client

variable {σ : Type}

/-- The path of a page of comments. -/
def pagePath (pr : PullRequest) (perPage page : Int) : String :=
  pr.commentsPath ++ s!"?per_page={perPage}&page={page}"

/-- The comments from a page on, after those in `done`. `left` is the number of pages that may still
be read. -/
def listFrom (client : Client σ) (pr : PullRequest) (paging : Paging) :
    Nat → Int → List Json → Talk σ (List Json)
  | 0, _, done => return done
  | left + 1, page, done => do
    match ← client.request "GET" (pagePath pr paging.perPage page) with
    | .arr [] => return done
    | .arr entries =>
      let comments := entries.filter isObject
      let done := done ++ comments
      let found := paging.stopAt.any fun marker =>
        (comments.findSome? (markedId? marker)).isSome
      if found || (entries.length : Int) < paging.perPage then return done
      else client.listFrom pr paging left (page + 1) done
    | _ => return done

/-- The comments of a pull request. A page that is not full is the last one; a reply that is no
listing ends it, too. -/
def listComments (client : Client σ) (pr : PullRequest) (paging : Paging) :
    Talk σ (List Json) :=
  client.listFrom pr paging paging.maxPages.toNat 1 []

/-- Changes the comment that carries a marker, or creates one. Without given comments the pull
request is asked for them. -/
def upsert (client : Client σ) (pr : PullRequest) (marker body : String)
    (comments : Option Json := none) : Talk σ Upserted := do
  let comments ←
    match comments with
    | some listing => pure listing
    | none => Json.arr <$> client.listComments pr { stopAt := some marker }
  let content := Json.obj [("body", .str body)]
  match findComment marker comments with
  | .error fault => throw fault
  | .ok (some id) =>
    let _ ← client.request "PATCH" (pr.commentPath id) (some content)
    return .updated id
  | .ok none =>
    let created ← client.request "POST" pr.commentsPath (some content)
    match created.field? "id" with
    | some (.int i) => return .created (some (.int i))
    | some (.bool b) => return .created (some (.bool b))
    | _ => return .created none

end Client

end LintReport.GitHub
