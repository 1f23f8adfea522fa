import LintReport.GitHub.Comments
import LintReport.Proofs.Effects
import LintReport.Proofs.GitHub.Address
import LintReport.Proofs.Json.RoundTrip
import LintReport.Proofs.Text.Utf8

/-!
# One Attempt at a Time

A request is a chain of attempts, and each attempt ends in one of five ways: the transport breaks
down, the reader has no room for the reply, the request is done, the code host is unavailable, or it
refuses. The chain goes on in the fourth case only. The equations below say what each ending does to
the conversation, so that a service can be followed without opening the client.

## Main results

* `Client.attempts_succ`: what one attempt does.
* `Client.attempts_done`, `Client.request_done`: a reply that is done ends the request.
* `Client.attempts_broken`, `Client.attempts_unreadable`, `Client.attempts_refused`: so does one
  that refuses it or that there is no room for, or none at all.
* `Client.attempts_again`: **the next attempt is made where the code host was unavailable**.
* `Client.attempts_exhausted`, `Client.attempts_delayOverflow`: the two ways to give up.
* `Reply.value_encode`: a value that a reply carries is read as that value, if there is room for it.
* `Reply.value_brackets`: there is none for too many open brackets.
-/

namespace LintReport.GitHub

namespace Client

variable {σ : Type}

/-! ### Single attempts -/

/-- The request for an address. -/
def requestTo (client : Client σ) (method url : String) (body : Option Json) : Request where
  method := methodOr method body
  url := url
  headers := [("accept", "application/vnd.github+json"),
    ("authorization", "Bearer " ++ client.token), ("content-type", "application/json"),
    ("user-agent", "tempo-lints")]
  body := body.map Json.compact
  timeout := client.timeout

/-- The content of a request is a value on one line. -/
theorem requestTo_body (client : Client σ) (method url : String) (body : Option Json) :
    (client.requestTo method url body).body = body.map Json.compact := rfl

/-- A path with an address has a request. -/
theorem build?_eq {client : Client σ} {path url : String} (h : client.address? path = some url)
    (method : String) (body : Option Json) :
    client.build? method path body = some (client.requestTo method url body) := by
  rw [address?] at h
  rw [build?, h]
  rfl

variable {client : Client σ} {method path : String} {body : Option Json} {request : Request}
  {reply : Reply} {v : Json} {s : Conversation σ} {transport : σ}

/-- The conversation after a request has been sent. -/
def afterSend (s : Conversation σ) (request : Request) (transport : σ) : Conversation σ :=
  { s with transport := transport, sent := s.sent ++ [request] }

/-- A request that the transport carries is answered. -/
theorem send_run (hcarry : client.carry request s.transport = (.ok reply, transport)) :
    (client.send request).run.run s = (.ok reply, afterSend s request transport) := by
  have hstate : (get : Talk σ (Conversation σ)).run.run s = (.ok s, s) := rfl
  rw [send, run_bind_ok hstate, hcarry]
  rfl

/-- A request that the transport does not carry fails with status 0. -/
theorem send_run_error {reason : String}
    (hcarry : client.carry request s.transport = (.error reason, transport)) :
    (client.send request).run.run s =
      (.error (.failure 0 reason), afterSend s request transport) := by
  have hstate : (get : Talk σ (Conversation σ)).run.run s = (.ok s, s) := rfl
  rw [send, run_bind_ok hstate, hcarry]
  rfl

/-- Where no attempt is left, the request fails. -/
theorem attempts_zero (attempt : Nat) :
    client.attempts method path body 0 attempt = throw .noAttempt := by
  delta attempts
  dsimp only [Nat.brecOn, Nat.brecOn.go]
  rfl

/-- Without an address, the request fails before anything is sent. -/
theorem attempts_noAddress (haddress : client.address? path = none) (left attempt : Nat) :
    client.attempts method path body (left + 1) attempt = throw .noScheme := by
  have hbuild : client.build? method path body = none := by
    rw [address?] at haddress
    rw [build?, haddress]
    rfl
  delta attempts
  dsimp only [Nat.brecOn, Nat.brecOn.go]
  delta attempts._f
  dsimp only
  rw [hbuild]

/-- **One attempt**: the request is sent, and its reply decides how to go on. -/
theorem attempts_succ (hbuild : client.build? method path body = some request)
    (left attempt : Nat) :
    client.attempts method path body (left + 1) attempt =
      (do
        let reply ← client.send request
        match reply.value with
        | .error limit => throw (.unreadable limit)
        | .ok v =>
          if reply.isDone then return v
          else if reply.isUnavailable then
            if left == 0 then throw (.unavailable reply.status client.maxAttempts)
            else
              client.wait attempt reply.status
              client.attempts method path body left (attempt + 1)
          else throw (reply.fault v)) := by
  -- the recursion is opened by hand, so that nothing looks into the address of the request
  delta attempts
  dsimp only [Nat.brecOn, Nat.brecOn.go]
  delta attempts._f
  dsimp only
  generalize client.build? method path body = found at hbuild ⊢
  subst hbuild
  rfl

/-- A request that is not carried ends with a fault. -/
theorem attempts_broken (hbuild : client.build? method path body = some request) {reason : String}
    (hcarry : client.carry request s.transport = (.error reason, transport)) (left attempt : Nat) :
    (client.attempts method path body (left + 1) attempt).run.run s =
      (.error (.failure 0 reason), afterSend s request transport) := by
  rw [attempts_succ hbuild, run_bind_error (send_run_error hcarry)]

/-- A reply that the reader has no room for ends the request with a fault, whatever its status. -/
theorem attempts_unreadable (hbuild : client.build? method path body = some request)
    (hcarry : client.carry request s.transport = (.ok reply, transport)) {limit : Json.Limit}
    (hvalue : reply.value = .error limit) (left attempt : Nat) :
    (client.attempts method path body (left + 1) attempt).run.run s =
      (.error (.unreadable limit), afterSend s request transport) := by
  rw [attempts_succ hbuild, run_bind_ok (send_run hcarry), hvalue]
  rfl

/-- The status of a reply that was read decides how to go on. -/
theorem attempts_read (hbuild : client.build? method path body = some request)
    (hcarry : client.carry request s.transport = (.ok reply, transport))
    (hvalue : reply.value = .ok v) (left attempt : Nat) :
    (client.attempts method path body (left + 1) attempt).run.run s =
      (if reply.isDone then return v
        else if reply.isUnavailable then
          if left == 0 then throw (.unavailable reply.status client.maxAttempts)
          else do
            client.wait attempt reply.status
            client.attempts method path body left (attempt + 1)
        else throw (reply.fault v) : Talk σ Json).run.run (afterSend s request transport) := by
  rw [attempts_succ hbuild, run_bind_ok (send_run hcarry), hvalue]

/-- **A reply that is done ends the request.** -/
theorem attempts_done (hbuild : client.build? method path body = some request)
    (hcarry : client.carry request s.transport = (.ok reply, transport))
    (hvalue : reply.value = .ok v) (hdone : reply.isDone = true) (left attempt : Nat) :
    (client.attempts method path body (left + 1) attempt).run.run s =
      (.ok v, afterSend s request transport) := by
  rw [attempts_read hbuild hcarry hvalue, if_pos hdone]
  rfl

/-- A reply that refuses the request ends it with a fault. -/
theorem attempts_refused (hbuild : client.build? method path body = some request)
    (hcarry : client.carry request s.transport = (.ok reply, transport))
    (hvalue : reply.value = .ok v) (hdone : reply.isDone = false)
    (hunavailable : reply.isUnavailable = false) (left attempt : Nat) :
    (client.attempts method path body (left + 1) attempt).run.run s =
      (.error (reply.fault v), afterSend s request transport) := by
  rw [attempts_read hbuild hcarry hvalue, hdone, if_neg Bool.false_ne_true, hunavailable,
    if_neg Bool.false_ne_true]
  rfl

/-- A reply of an unavailable code host to the last attempt ends the request with a fault. -/
theorem attempts_exhausted (hbuild : client.build? method path body = some request)
    (hcarry : client.carry request s.transport = (.ok reply, transport))
    (hvalue : reply.value = .ok v) (hdone : reply.isDone = false)
    (hunavailable : reply.isUnavailable = true) (attempt : Nat) :
    (client.attempts method path body 1 attempt).run.run s =
      (.error (.unavailable reply.status client.maxAttempts),
        afterSend s request transport) := by
  rw [attempts_read hbuild hcarry hvalue, hdone, if_neg Bool.false_ne_true, if_pos hunavailable]
  rfl

/-- How long to wait after an attempt, and the words for it, where both are known. -/
def pause? (client : Client σ) (attempt : Nat) : Option (Quantity × String) := do
  let delay ← client.delay? attempt
  let shown ← delay.toFixed? 1
  return (delay, shown)

/-- The conversation after a wait. -/
def afterWait (client : Client σ) (attempt : Nat) (status : Int) (pause : Quantity × String)
    (s : Conversation σ) : Conversation σ :=
  { s with
    diagnostics := s.diagnostics ++ [s!"::warning::GitHub API error {status} " ++
      s!"(attempt {attempt + 1}/{client.maxAttempts}), retrying in {pause.2}s..."]
    waited := s.waited ++ [pause.1] }

/-- A wait whose length is known succeeds. -/
theorem wait_run {attempt : Nat} {pause : Quantity × String}
    (hpause : client.pause? attempt = some pause) (status : Int) :
    (client.wait attempt status).run.run s = (.ok (), afterWait client attempt status pause s) := by
  rw [pause?] at hpause
  simp only [bind, Option.bind_eq_some_iff, pure, Option.some.injEq] at hpause
  obtain ⟨delay, hdelay, shown, hshown, rfl⟩ := hpause
  rw [wait, hdelay]
  dsimp only
  rw [hshown]
  rfl

/-- A wait that is too long for a number fails. -/
theorem wait_run_error {attempt : Nat} (hpause : client.pause? attempt = none) (status : Int) :
    (client.wait attempt status).run.run s = (.error .delayOverflow, s) := by
  rw [pause?] at hpause
  rw [wait]
  cases hdelay : client.delay? attempt with
  | none => rfl
  | some delay =>
    rw [hdelay] at hpause
    cases hshown : delay.toFixed? 1 with
    | none =>
      dsimp only
      rw [hshown]
      rfl
    | some shown =>
      rw [Option.bind_eq_bind, Option.bind_some, hshown] at hpause
      cases hpause

/-- **The next attempt is made where the code host was unavailable**, after a wait. -/
theorem attempts_again (hbuild : client.build? method path body = some request)
    (hcarry : client.carry request s.transport = (.ok reply, transport))
    (hvalue : reply.value = .ok v) (hdone : reply.isDone = false)
    (hunavailable : reply.isUnavailable = true) {attempt : Nat} {pause : Quantity × String}
    (hpause : client.pause? attempt = some pause) (left : Nat) :
    (client.attempts method path body (left + 2) attempt).run.run s =
      (client.attempts method path body (left + 1) (attempt + 1)).run.run
        (afterWait client attempt reply.status pause (afterSend s request transport)) := by
  rw [attempts_read hbuild hcarry hvalue, hdone, if_neg Bool.false_ne_true, if_pos hunavailable,
    if_neg (by simp), run_bind_ok (wait_run hpause reply.status)]

/-- A wait that is too long for a number ends the request with a fault. -/
theorem attempts_delayOverflow (hbuild : client.build? method path body = some request)
    (hcarry : client.carry request s.transport = (.ok reply, transport))
    (hvalue : reply.value = .ok v) (hdone : reply.isDone = false)
    (hunavailable : reply.isUnavailable = true) {attempt : Nat}
    (hpause : client.pause? attempt = none) (left : Nat) :
    (client.attempts method path body (left + 2) attempt).run.run s =
      (.error .delayOverflow, afterSend s request transport) := by
  rw [attempts_read hbuild hcarry hvalue, hdone, if_neg Bool.false_ne_true, if_pos hunavailable,
    if_neg (by simp), run_bind_error (wait_run_error hpause reply.status)]

/-- A request is done with the first attempt if the reply to it is. -/
theorem request_done (hattempts : 1 ≤ client.maxAttempts)
    (hbuild : client.build? method path body = some request)
    (hcarry : client.carry request s.transport = (.ok reply, transport))
    (hvalue : reply.value = .ok v) (hdone : reply.isDone = true) :
    (client.request method path body).run.run s =
      (.ok v, afterSend s request transport) := by
  obtain ⟨left, hleft⟩ : ∃ left, client.maxAttempts.toNat = left + 1 :=
    ⟨client.maxAttempts.toNat - 1, by omega⟩
  rw [Client.request, hleft]
  exact attempts_done hbuild hcarry hvalue hdone left 0

end Client

/-! ### Replies -/

/-- **A value that a reply carries is read as that value**, if there is room for it. -/
theorem Reply.value_encode {v : Json} (hv : Json.Readable v) (hfit : Json.Fits Json.depthLimit v)
    (status : Int) : (⟨status, Text.Utf8.encode v.compact⟩ : Reply).value = .ok v := by
  rw [Reply.value]
  dsimp only
  rw [Text.Utf8.decode?_encode]
  dsimp only
  rw [Json.parse_compact hv hfit]

/-- **A reply of too many open brackets has no value.** -/
theorem Reply.value_brackets {n : Nat} (hn : Json.depthLimit < n) (status : Int) :
    (⟨status, Text.Utf8.encode (Json.openBrackets n)⟩ : Reply).value = .error .nesting := by
  rw [Reply.value]
  dsimp only
  rw [Text.Utf8.decode?_encode]
  dsimp only
  rw [Json.parse_openBrackets hn]

/-- A reply of ten thousand open brackets. -/
def deepReply : Reply := ⟨200, Text.Utf8.encode (Json.openBrackets 10000)⟩

/-- There is no room for it. -/
theorem value_deepReply : deepReply.value = .error .nesting :=
  Reply.value_brackets (by decide) 200

end LintReport.GitHub
