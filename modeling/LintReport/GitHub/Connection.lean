import LintReport.GitHub.Client
import LintReport.Text.Quoted

/-!
# Connections to the code host

Opening an address ends in a reply, whatever its status, or in a breakdown. A breakdown becomes a
text: what is known about it, or else its name.

## Main definitions

* `Breakdown`, `Breakdown.text`.
* `Connection`, `Connection.carry`: a transport that meets the same outcome every time.
-/

namespace LintReport.GitHub

/-- Why a connection gave no reply. -/
inductive Breakdown
  /-- The address could not be reached. -/
  | unreachable (reason : String)
  /-- The system reported a fault, under a name and with details: a number, a text and paths. -/
  | system (name : String) (details : List String)
  /-- The connection could not be made secure, under a name and with details. -/
  | insecure (name : String) (details : List String)
  /-- The rules of the connection were broken. -/
  | protocol (name : String) (details : List String)
  /-- The first line of the reply was no status line. -/
  | badStatusLine (line : String)
  /-- The reply ended after some octets. -/
  | incomplete (octets : Nat)
  /-- A line of the reply was too long. -/
  | longLine (what : String)
deriving DecidableEq, Repr

/-- Details as they are listed: one by itself, more between parentheses. -/
def listDetails : List String → String
  | [] => ""
  | [detail] => detail
  | details => "(" ++ ", ".intercalate (details.map Text.quote) ++ ")"

/-- The details of a fault of the system. -/
def systemDetails : List String → String
  | [number, words] => s!"[Errno {number}] {words}"
  | [number, words, path] => s!"[Errno {number}] {words}: {Text.quote path}"
  | [number, words, path, _] => s!"[Errno {number}] {words}: {Text.quote path}"
  | [number, words, path, _, other] =>
    s!"[Errno {number}] {words}: {Text.quote path} -> {Text.quote other}"
  | details => listDetails details

/-- The details of a fault in making a connection secure: its text, if there is a number before it,
and else all that is known, between parentheses. -/
def securityDetails : List String → String
  | [detail] => "(" ++ Text.quote detail ++ ",)"
  | details =>
    if details.length ∈ [2, 3, 4, 5] then details.getD 1 ""
    else "(" ++ ", ".intercalate (details.map Text.quote) ++ ")"

/-- What is known about a breakdown, or else its name. -/
def Breakdown.text : Breakdown → String
  | unreachable reason => reason
  | system name details =>
    let known := systemDetails details
    if known.isEmpty then name else known
  | insecure name details =>
    let known := securityDetails details
    if known.isEmpty then name else known
  | protocol name details =>
    let known := listDetails details
    if known.isEmpty then name else known
  | badStatusLine line => if line.isEmpty then Text.quote line else line
  | incomplete octets => s!"IncompleteRead({octets} bytes read)"
  | longLine what => s!"got more than 65536 bytes when reading {what}"

/-- What opening an address ends in. -/
abbrev Connection := Except Breakdown Reply

/-- A transport that meets the same outcome every time. -/
def Connection.carry : Transport Connection := fun _ outcome =>
  (outcome.mapError Breakdown.text, outcome)

end LintReport.GitHub
