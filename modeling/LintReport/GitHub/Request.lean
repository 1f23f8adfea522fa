import LintReport.Json.Basic
import LintReport.Json.Fault
import LintReport.Number.Quantity
import LintReport.Text.Blank

/-!
# Requests to the code host

## Main definitions

* `Request`, `Reply`: what is sent and what comes back.
* `Request.normalizeUrl?`: the address of a request.
* `ApiFault`: why the code host did not do what was asked.
-/

namespace LintReport.GitHub

/-- A request. -/
structure Request where
  method : String
  url : String
  /-- Names in small letters, in their order. -/
  headers : List (String × String)
  body : Option String
  timeout : Quantity
deriving DecidableEq, Repr

/-- A reply: its status and its content. -/
structure Reply where
  status : Int
  content : List UInt8
deriving DecidableEq, Repr

/-- Why the code host did not do what was asked. -/
inductive ApiFault
  /-- It answered with an error, or with status 0 was not reached. -/
  | failure (status : Int) (message : String)
  /-- The token does not allow it. -/
  | permission (message : String)
  /-- It was unavailable at every attempt. -/
  | unavailable (status attempts : Int)
  /-- The reader has no room for its reply. -/
  | unreadable (limit : Json.Limit)
  /-- The address has no scheme. -/
  | noScheme
  /-- A waiting time is too large for a number. -/
  | delayOverflow
  /-- No attempt is allowed. -/
  | noAttempt
  /-- A listing holds something that is no comment. -/
  | notComment
  /-- What should be a listing is none. -/
  | notListing
deriving DecidableEq, Repr

namespace ApiFault

/-- The status that a fault comes with. -/
def status? : ApiFault → Option Int
  | failure status _ => some status
  | permission _ => some 403
  | unavailable status _ => some status
  | _ => none

/-- What is said about a missing permission. -/
def permissionHint : String :=
  ". Unable to post PR comment: token lacks pull-requests: write permission.\n" ++
    "Add this to your workflow:\npermissions:\n  contents: read\n  pull-requests: write"

/-- A message of the code host with its status. -/
def withStatus (status : Int) (message : String) : String :=
  s!"GitHub API error ({status}): {message}"

/-- The words for a fault. -/
def message : ApiFault → String
  | failure status text => withStatus status text
  | permission text => withStatus 403 (text ++ permissionHint)
  | unavailable status attempts =>
    withStatus status s!"transient error after {attempts} attempts"
  | unreadable limit => limit.message
  | noScheme => "unknown url type"
  | delayOverflow => "int too large to convert to float"
  | noAttempt => "GitHubClient.request retry loop exited unexpectedly"
  | notComment => "not a comment"
  | notListing => "not a listing"

end ApiFault

namespace Request

/-- An address without blanks around it, without angle brackets, and without the letters `URL:` in
front. -/
def unwrapUrl (url : List Char) : List Char :=
  let url := Text.trimChars url
  let url :=
    if url.head? == some '<' && url.getLast? == some '>' then
      Text.trimChars (url.drop 1).dropLast
    else url
  if ['U', 'R', 'L', ':'].isPrefixOf url then Text.trimChars (url.drop 4) else url

/-- Whether an address starts with a scheme: characters other than slashes and colons before a
colon. -/
def hasScheme (url : List Char) : Bool :=
  let scheme := url.takeWhile fun c => c != ':' && c != '/'
  !scheme.isEmpty && (url.drop scheme.length).head? == some ':'

/-- An address without its fragment, which is what follows the last number sign. -/
def beforeFragment (url : List Char) : List Char :=
  if url.contains '#' then ((url.reverse.dropWhile (· != '#')).drop 1).reverse else url

/-- The address of a request: unwrapped, without an empty fragment. It needs a scheme. -/
def normalizeUrl? (url : String) : Option String :=
  let url := unwrapUrl url.toList
  if !hasScheme (beforeFragment url) then none
  else some (String.ofList (if url.getLast? == some '#' then url.dropLast else url))

end Request

end LintReport.GitHub
