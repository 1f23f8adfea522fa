import LintReport.GitHub.Request
import LintReport.Json.Parser
import LintReport.Json.Printer
import LintReport.Number.Power
import LintReport.Text.Utf8

/-!
# Talking to the code host

A request is sent at most a given number of times: again only while the code host is unavailable,
and after a wait that doubles every time. Everything that is sent, waited and said is recorded.

## Main definitions

* `Transport`: what carries a request, with a state of its own.
* `Conversation`: that state, and the record of what was done.
* `Client`, `Client.request`: a request with its retries.
-/

namespace LintReport.GitHub

/-- What carries requests: a reply, or the reason why there is none. -/
abbrev Transport (σ : Type) := Request → σ → Except String Reply × σ

/-- What has been done so far. -/
structure Conversation (σ : Type) where
  transport : σ
  sent : List Request := []
  waited : List Quantity := []
  diagnostics : List String := []

/-- A talk that may end in a fault. -/
abbrev Talk (σ : Type) := ExceptT ApiFault (StateM (Conversation σ))

/-- How the code host is talked to. -/
structure Client (σ : Type) where
  carry : Transport σ
  token : String
  apiUrl : String := "https://api.github.com"
  timeout : Quantity := .float (.ofRatio false 30 1)
  maxAttempts : Int := 3
  baseDelay : Quantity := .float (.ofRatio false 1 1)
  /-- What is added to every wait. -/
  jitter : Quantity := .float (.zero false)

/-- The statuses of a code host that is unavailable for a while. -/
def unavailableStatuses : List Int := [502, 503, 504]

/-- The value of a reply. Content that is not JSON counts as an empty object, and content that the
reader has no room for as no value at all. -/
def Reply.value (reply : Reply) : Except Json.Limit Json :=
  match Text.Utf8.decode? reply.content with
  | none => .ok (.obj [])
  | some text =>
    match Json.parse text with
    | .ok v => .ok v
    | .error (.notJson _) => .ok (.obj [])
    | .error (.beyond limit) => .error limit

/-- Whether a request was done. -/
def Reply.isDone (reply : Reply) : Bool := 200 ≤ reply.status && reply.status < 300

/-- Whether the code host is unavailable for a while. -/
def Reply.isUnavailable (reply : Reply) : Bool := unavailableStatuses.contains reply.status

/-- What went wrong, by a reply and its value. -/
def Reply.fault (reply : Reply) (v : Json) : ApiFault :=
  let message :=
    match (v.field? "message").bind Json.text? with
    | some text =>
      if text.isEmpty then s!"Request failed with status {reply.status}" else text
    | none => s!"Request failed with status {reply.status}"
  if reply.status == 403 then .permission message else .failure reply.status message

namespace Client

variable {σ : Type}

/-- The method of a request. Without one, content is posted, and otherwise the address is read. -/
def methodOr (method : String) (body : Option Json) : String :=
  if !method.isEmpty then method else if body.isSome then "POST" else "GET"

/-- The request for a path, if the address has a scheme. -/
def build? (client : Client σ) (method path : String) (body : Option Json) : Option Request :=
  (Request.normalizeUrl? (Text.dropTrailing '/' client.apiUrl ++ path)).map fun url =>
    { method := methodOr method body
      url := url
      headers := [("accept", "application/vnd.github+json"),
        ("authorization", "Bearer " ++ client.token), ("content-type", "application/json"),
        ("user-agent", "tempo-lints")]
      body := body.map Json.compact
      timeout := client.timeout }

/-- Sends a request once. -/
def send (client : Client σ) (request : Request) : Talk σ Reply := do
  let s ← get
  let (outcome, transport) := client.carry request s.transport
  set { s with transport := transport, sent := s.sent ++ [request] }
  match outcome with
  | .ok reply => return reply
  | .error reason => throw (.failure 0 reason)

/-- How long to wait after an attempt. -/
def delay? (client : Client σ) (attempt : Nat) : Option Quantity := do
  (← client.baseDelay.mul? (.int (twoTo attempt))).add? client.jitter

/-- Waits after an attempt at which the code host was unavailable. -/
def wait (client : Client σ) (attempt : Nat) (status : Int) : Talk σ Unit := do
  match client.delay? attempt with
  | none => throw .delayOverflow
  | some delay =>
    match delay.toFixed? 1 with
    | none => throw .delayOverflow
    | some shown =>
      let line := s!"::warning::GitHub API error {status} " ++
        s!"(attempt {attempt + 1}/{client.maxAttempts}), retrying in {shown}s..."
      modify fun s =>
        { s with diagnostics := s.diagnostics ++ [line], waited := s.waited ++ [delay] }

/-- The attempts from one on, of which `left` are allowed. The value of a reply is read before its
status is looked at. -/
def attempts (client : Client σ) (method path : String) (body : Option Json) :
    Nat → Nat → Talk σ Json
  | 0, _ => throw .noAttempt
  | left + 1, attempt => do
    match client.build? method path body with
    | none => throw .noScheme
    | some request =>
      let reply ← client.send request
      match reply.value with
      | .error limit => throw (.unreadable limit)
      | .ok v =>
        if reply.isDone then return v
        else if reply.isUnavailable then
          if left == 0 then throw (.unavailable reply.status client.maxAttempts)
          else
            client.wait attempt reply.status
            client.attempts method path body left (attempt + 1)
        else throw (reply.fault v)

/-- The value that a request is answered with. -/
def request (client : Client σ) (method path : String) (body : Option Json := none) :
    Talk σ Json :=
  client.attempts method path body client.maxAttempts.toNat 0

end Client

end LintReport.GitHub
