import LintReport.Proofs.GitHub.Service

/-!
# Exchanges

A request and all its attempts are one exchange: replies of a code host that was unavailable, and
then the outcome of the last attempt. Whatever a transport does, a request of the client is such an
exchange, or it could not be sent at all. What happens between client and transport is then a list
of exchanges.

A reply counts for nothing where the reader has no room for it: neither is its request done then,
nor is it sent again.

## Main definitions

* `Reply.IsReadable`: whether there is room for a reply.
* `Exchange`: a request with its attempts.
* `Client.Logs`: what was sent and carried between two points of a conversation.
* `Client.Requested`: the exchange that a request of the client was, and its result.

## Main results

* `Client.attempts_run`: **attempts are one exchange**, for every transport.
* `Client.request_run`: so is a request, unless it could not be sent.
* `Exchange.mem_requests_iff`, `Client.request_sends`: what is sent in exchanges, and in one
  request.
-/

namespace LintReport.GitHub

variable {σ : Type}

/-- A request that a transport was given, and the outcome. -/
abbrev Attempt := Request × Except String Reply

/-- An unavailable code host has not done what was asked. -/
theorem Reply.isDone_of_isUnavailable {reply : Reply} (h : reply.isUnavailable = true) :
    reply.isDone = false := by
  have hstatus : reply.status = 502 ∨ reply.status = 503 ∨ reply.status = 504 := by
    simpa [isUnavailable, unavailableStatuses] using h
  rw [isDone, Bool.and_eq_false_iff]
  right
  rw [decide_eq_false_iff_not]
  omega

/-- A reply that refuses a request is a fault with a status. -/
theorem Reply.status?_fault (reply : Reply) (v : Json) :
    ∃ status, (reply.fault v).status? = some status := by
  rw [fault]
  split
  · exact ⟨403, rfl⟩
  · exact ⟨reply.status, rfl⟩

/-- Whether the reader has room for a reply, so that it has a value. -/
def Reply.IsReadable (reply : Reply) : Prop := ∃ v, reply.value = .ok v

/-! ### Exchanges -/

/-- A request with its attempts: the replies of an unavailable code host after which it was sent
again, and the outcome of the last attempt. -/
structure Exchange where
  request : Request
  lost : List Reply
  ended : Except String Reply
  unavailable : ∀ reply ∈ lost, reply.isUnavailable = true ∧ reply.IsReadable

namespace Exchange

/-- All attempts of an exchange. -/
def attempts (e : Exchange) : List Attempt :=
  e.lost.map (fun reply => (e.request, .ok reply)) ++ [(e.request, e.ended)]

/-- At all attempts of an exchange the same was asked for. -/
theorem map_fst_attempts (e : Exchange) :
    e.attempts.map Prod.fst = List.replicate (e.lost.length + 1) e.request := by
  rw [attempts, List.map_append, List.map_map, List.map_singleton, List.replicate_succ']
  exact congrArg (· ++ [e.request]) List.map_const'

/-- The value that the request was answered with, if it was done. -/
def value? (e : Exchange) : Option Json :=
  match e.ended with
  | .ok reply => if reply.isDone then reply.value.toOption else none
  | .error _ => none

/-- Whether the request was done in the end, by a reply that there is room for. -/
def IsDone (e : Exchange) : Prop :=
  ∃ reply, e.ended = .ok reply ∧ reply.isDone = true ∧ reply.IsReadable

/-- A request that was done has a value. -/
theorem isDone_iff {e : Exchange} : e.IsDone ↔ ∃ v, e.value? = some v := by
  rw [IsDone, value?]
  cases e.ended with
  | error reason => simp
  | ok reply =>
    simp only [Except.ok.injEq, exists_eq_left', Reply.IsReadable]
    cases reply.value <;> simp [Except.toOption]

/-- Whether the last attempt ended in a reply that there is no room for. -/
def EndsBeyond (limit : Json.Limit) (e : Exchange) : Prop :=
  ∃ reply, e.ended = .ok reply ∧ reply.value = .error limit

/-- Then the request was not done. -/
theorem EndsBeyond.not_isDone {limit : Json.Limit} {e : Exchange} (h : e.EndsBeyond limit) :
    ¬ e.IsDone := by
  obtain ⟨reply, hended, hvalue⟩ := h
  rintro ⟨reply', hended', -, v, hv⟩
  obtain rfl := Except.ok.inj (hended.symm.trans hended')
  rw [hvalue] at hv
  cases hv

/-- What an exchange ends in, where `left` attempts may follow the first one. Where another attempt
would have been allowed, the wait before it was too long for a number. -/
def result (client : Client σ) (left : Nat) (e : Exchange) : Except ApiFault Json :=
  match e.ended with
  | .error reason => .error (.failure 0 reason)
  | .ok reply =>
    match reply.value with
    | .error limit => .error (.unreadable limit)
    | .ok v =>
      if reply.isDone then .ok v
      else if reply.isUnavailable then
        if e.lost.length < left then .error .delayOverflow
        else .error (.unavailable reply.status client.maxAttempts)
      else .error (reply.fault v)

variable {client : Client σ} {left : Nat} {e : Exchange}

/-- An exchange ends in a value exactly when the request was done. -/
theorem result_eq_ok_iff {v : Json} : e.result client left = .ok v ↔ e.value? = some v := by
  rw [result, value?]
  cases e.ended with
  | error reason => simp
  | ok reply =>
    dsimp only
    cases reply.value with
    | error limit => simp [Except.toOption]
    | ok w =>
      dsimp only
      split
      · simp [Except.toOption]
      · split
        · split <;> simp
        · simp

/-- It ends at a limit of the reader exactly when its last reply does. -/
theorem result_eq_unreadable_iff {limit : Json.Limit} :
    e.result client left = .error (.unreadable limit) ↔ e.EndsBeyond limit := by
  rw [result, EndsBeyond]
  cases e.ended with
  | error reason => simp
  | ok reply =>
    simp only [Except.ok.injEq, exists_eq_left']
    cases reply.value with
    | error limit' => simp
    | ok v =>
      simp only [reduceCtorEq, iff_false]
      split
      · simp
      · split
        · split <;> simp
        · intro h
          obtain ⟨status, hstatus⟩ := reply.status?_fault v
          rw [Except.error.inj h] at hstatus
          cases hstatus

/-- Unless a wait was too long or there was no room for the reply, an exchange that was not done
ends in a fault of the code host. -/
theorem status?_of_result {fault : ApiFault} (h : e.result client left = .error fault)
    (hwait : fault ≠ .delayOverflow) :
    (∃ status, fault.status? = some status) ∨ ∃ limit, fault = .unreadable limit := by
  rw [result] at h
  split at h
  · cases h
    exact .inl ⟨0, rfl⟩
  next reply _ =>
  split at h
  · next limit _ =>
    cases h
    exact .inr ⟨limit, rfl⟩
  next v _ =>
  split at h
  · cases h
  left
  split at h
  · split at h
    · cases h
      exact absurd rfl hwait
    · cases h
      exact ⟨reply.status, rfl⟩
  · cases h
    exact reply.status?_fault v

/-- Where a wait was too long, the code host was unavailable and another attempt was allowed. -/
theorem of_result_eq_delayOverflow (h : e.result client left = .error .delayOverflow) :
    (∃ reply, e.ended = .ok reply ∧ reply.isUnavailable = true ∧ reply.IsReadable) ∧
      e.lost.length < left := by
  rw [result] at h
  split at h
  · cases h
  next reply hended =>
  split at h
  · cases h
  next v hvalue =>
  split at h
  · cases h
  split at h
  · next hunavailable =>
    split at h
    · next hleft => exact ⟨⟨reply, hended, hunavailable, v, hvalue⟩, hleft⟩
    · cases h
  · obtain ⟨status, hstatus⟩ := reply.status?_fault v
    rw [Except.error.inj h] at hstatus
    cases hstatus

/-- An exchange with one more reply of an unavailable code host before it. -/
def prepend (reply : Reply) (h : reply.isUnavailable = true ∧ reply.IsReadable) (e : Exchange) :
    Exchange where
  request := e.request
  lost := reply :: e.lost
  ended := e.ended
  unavailable := List.forall_mem_cons.2 ⟨h, e.unavailable⟩

/-- The reply that is put before an exchange is its first attempt. -/
theorem attempts_prepend (reply : Reply) (h : reply.isUnavailable = true ∧ reply.IsReadable)
    (e : Exchange) : (e.prepend reply h).attempts = [(e.request, .ok reply)] ++ e.attempts := rfl

/-- An exchange ends as it does without the reply before it. -/
theorem result_prepend (reply : Reply) (h : reply.isUnavailable = true ∧ reply.IsReadable) :
    (e.prepend reply h).result client (left + 1) = e.result client left := by
  rw [result, result, prepend]
  simp only [List.length_cons, Nat.add_lt_add_iff_right]

/-- An exchange of one attempt. -/
def single (request : Request) (ended : Except String Reply) : Exchange where
  request := request
  lost := []
  ended := ended
  unavailable := List.forall_mem_nil _

/-- What was sent at the attempts of exchanges is what they asked for. -/
theorem mem_requests_iff {es : List Exchange} {request : Request} :
    request ∈ (es.flatMap attempts).map Prod.fst ↔ ∃ e ∈ es, e.request = request := by
  rw [List.map_flatMap, List.mem_flatMap]
  refine exists_congr fun e => and_congr_right fun _ => ?_
  rw [map_fst_attempts, List.mem_replicate, eq_comm]
  exact and_iff_right (Nat.succ_ne_zero _)

end Exchange

/-! ### Logs -/

namespace Client

/-- Whether a transport goes from a state to another one by carrying some attempts. -/
inductive Carries (client : Client σ) : List Attempt → σ → σ → Prop
  | nil (t : σ) : Carries client [] t t
  | cons {request : Request} {outcome : Except String Reply} {rest : List Attempt} {t t' t'' : σ} :
    client.carry request t = (outcome, t') → Carries client rest t' t'' →
      Carries client ((request, outcome) :: rest) t t''

/-- What was carried in two parts was carried in one. -/
theorem Carries.append {client : Client σ} {log more : List Attempt} {t t' t'' : σ}
    (h : client.Carries log t t') (h' : client.Carries more t' t'') :
    client.Carries (log ++ more) t t'' := by
  induction h with
  | nil t => exact h'
  | cons hcarry _ ih => exact .cons hcarry (ih h')

/-- Whether exactly some attempts were made between two points of a conversation: the requests are
what was sent, and the transport gave the outcomes. -/
structure Logs (client : Client σ) (log : List Attempt) (s s' : Conversation σ) : Prop where
  sent : s'.sent = s.sent ++ log.map Prod.fst
  carried : client.Carries log s.transport s'.transport

namespace Logs

variable {client : Client σ} {log more : List Attempt} {s s' s'' : Conversation σ}

/-- Nothing was sent. -/
theorem refl (client : Client σ) (s : Conversation σ) : client.Logs [] s s :=
  ⟨(List.append_nil _).symm, .nil _⟩

/-- What was sent in two parts was sent in one. -/
theorem trans (h : client.Logs log s s') (h' : client.Logs more s' s'') :
    client.Logs (log ++ more) s s'' where
  sent := by rw [h'.sent, h.sent, List.map_append, List.append_assoc]
  carried := h.carried.append h'.carried

/-- A request was sent once. -/
theorem send {request : Request} {outcome : Except String Reply} {t : σ}
    (hcarry : client.carry request s.transport = (outcome, t)) :
    client.Logs [(request, outcome)] s (afterSend s request t) :=
  ⟨rfl, .cons hcarry (.nil t)⟩

/-- Nothing is sent in a wait. -/
theorem wait (h : client.Logs log s s') (attempt : Nat) (status : Int)
    (pause : Quantity × String) :
    client.Logs log s (afterWait client attempt status pause s') := ⟨h.sent, h.carried⟩

end Logs

/-! ### Requests -/

variable {client : Client σ} {method path : String} {body : Option Json} {request : Request}

/-- The last attempt: the code host was not unavailable, or there was no room for its reply, or no
further attempt was allowed, or the wait before it was too long. -/
theorem attempts_last (hbuild : client.build? method path body = some request) {left attempt : Nat}
    {s : Conversation σ} {outcome : Except String Reply} {t : σ}
    (hcarry : client.carry request s.transport = (outcome, t))
    (hlast : ∀ reply, outcome = .ok reply → reply.isUnavailable = true → reply.IsReadable →
      left = 0 ∨ client.pause? attempt = none) :
    (client.attempts method path body (left + 1) attempt).run.run s =
      ((Exchange.single request outcome).result client left, afterSend s request t) := by
  cases outcome with
  | error reason => exact attempts_broken hbuild hcarry left attempt
  | ok reply =>
    rw [Exchange.result, Exchange.single]
    dsimp only
    cases hvalue : reply.value with
    | error limit => exact attempts_unreadable hbuild hcarry hvalue left attempt
    | ok v =>
      cases hdone : reply.isDone with
      | true => exact attempts_done hbuild hcarry hvalue hdone left attempt
      | false =>
        cases hunavailable : reply.isUnavailable with
        | false => exact attempts_refused hbuild hcarry hvalue hdone hunavailable left attempt
        | true =>
          cases left with
          | zero => exact attempts_exhausted hbuild hcarry hvalue hdone hunavailable attempt
          | succ left =>
            have hpause := (hlast reply rfl hunavailable ⟨v, hvalue⟩).resolve_left
              (Nat.succ_ne_zero left)
            exact attempts_delayOverflow hbuild hcarry hvalue hdone hunavailable hpause left

/-- **Attempts are one exchange**, whatever the transport does. -/
theorem attempts_run (hbuild : client.build? method path body = some request) (left : Nat) :
    ∀ (attempt : Nat) (s : Conversation σ), ∃ (e : Exchange) (s' : Conversation σ),
      e.request = request ∧ e.lost.length ≤ left ∧
      (client.attempts method path body (left + 1) attempt).run.run s =
        (e.result client left, s') ∧
      client.Logs e.attempts s s' ∧
      (e.result client left = .error .delayOverflow →
        client.pause? (attempt + e.lost.length) = none) := by
  induction left with
  | zero =>
    intro attempt s
    rcases hcarry : client.carry request s.transport with ⟨outcome, t⟩
    refine ⟨.single request outcome, afterSend s request t, rfl, Nat.le_refl 0,
      attempts_last hbuild hcarry fun _ _ _ _ => .inl rfl, Logs.send hcarry, fun hwait => ?_⟩
    exact absurd (Exchange.of_result_eq_delayOverflow hwait).2 (Nat.not_lt_zero _)
  | succ left ih =>
    intro attempt s
    rcases hcarry : client.carry request s.transport with ⟨outcome, t⟩
    by_cases hlast : ∀ reply, outcome = .ok reply → reply.isUnavailable = true →
      reply.IsReadable → left + 1 = 0 ∨ client.pause? attempt = none
    · refine ⟨.single request outcome, afterSend s request t, rfl, Nat.zero_le _,
        attempts_last hbuild hcarry hlast, Logs.send hcarry, fun hwait => ?_⟩
      obtain ⟨⟨reply, hended, hunavailable, hreadable⟩, -⟩ :=
        Exchange.of_result_eq_delayOverflow hwait
      exact (hlast reply hended hunavailable hreadable).resolve_left (Nat.succ_ne_zero left)
    · -- the request is sent again: the rest is an exchange of its own
      push Not at hlast
      obtain ⟨reply, rfl, hunavailable, ⟨v, hvalue⟩, -, hpause⟩ := hlast
      obtain ⟨pause, hpause⟩ := Option.ne_none_iff_exists'.1 hpause
      obtain ⟨e, s', rfl, hlength, hrun, hlogs, hwait⟩ := ih (attempt + 1)
        (afterWait client attempt reply.status pause (afterSend s request t))
      have hdone := Reply.isDone_of_isUnavailable hunavailable
      refine ⟨e.prepend reply ⟨hunavailable, v, hvalue⟩, s', rfl, Nat.succ_le_succ hlength,
        ?_, ?_, ?_⟩
      · rw [attempts_again hbuild hcarry hvalue hdone hunavailable hpause, hrun,
          Exchange.result_prepend]
      · rw [Exchange.attempts_prepend]
        exact ((Logs.send hcarry).wait attempt reply.status pause).trans hlogs
      · rw [Exchange.result_prepend]
        intro h
        rw [← hwait h, Exchange.prepend, List.length_cons, Nat.add_assoc, Nat.add_comm 1]

/-- The exchange that a request of the client was, if it could be sent, and its result. -/
inductive Requested (client : Client σ) (method path : String) (body : Option Json) :
    List Exchange → Except ApiFault Json → Prop
  | noAttempt : client.maxAttempts < 1 → Requested client method path body [] (.error .noAttempt)
  | noAddress : client.address? path = none →
    Requested client method path body [] (.error .noScheme)
  | sent (e : Exchange) : client.Asks method path e.request →
    e.request.body = body.map Json.compact → (e.lost.length : Int) < client.maxAttempts →
    (e.result client (client.maxAttempts.toNat - 1) = .error .delayOverflow →
      client.pause? e.lost.length = none) →
    Requested client method path body [e] (e.result client (client.maxAttempts.toNat - 1))

namespace Requested

variable {es : List Exchange} {result : Except ApiFault Json}

/-- What is sent for a request is what was asked for, as often as it may be. -/
theorem asks (h : client.Requested method path body es result) :
    ∀ e ∈ es, client.Asks method path e.request ∧ e.request.body = body.map Json.compact ∧
      (e.lost.length : Int) < client.maxAttempts := by
  cases h with
  | noAttempt => exact List.forall_mem_nil _
  | noAddress => exact List.forall_mem_nil _
  | sent e hasks hbody hattempts => exact List.forall_mem_singleton.2 ⟨hasks, hbody, hattempts⟩

/-- A request is at most one exchange. -/
theorem length_le (h : client.Requested method path body es result) : es.length ≤ 1 := by
  cases h with
  | noAttempt => exact Nat.zero_le 1
  | noAddress => exact Nat.zero_le 1
  | sent => exact Nat.le_refl 1

/-- A request that was answered is an exchange with that value. -/
theorem exists_of_ok {v : Json} (h : client.Requested method path body es (.ok v)) :
    ∃ e, es = [e] ∧ e.value? = some v := by
  generalize hresult : Except.ok v = result at h
  cases h with
  | noAttempt => cases hresult
  | noAddress => cases hresult
  | sent e => exact ⟨e, rfl, Exchange.result_eq_ok_iff.1 hresult.symm⟩

/-- A request that failed was not done. -/
theorem not_isDone_of_error {fault : ApiFault}
    (h : client.Requested method path body es (.error fault)) : ∀ e ∈ es, ¬ e.IsDone := by
  generalize hresult : Except.error fault = result at h
  cases h with
  | noAttempt => exact List.forall_mem_nil _
  | noAddress => exact List.forall_mem_nil _
  | sent e =>
    rw [List.forall_mem_singleton, Exchange.isDone_iff]
    rintro ⟨v, hv⟩
    rw [Exchange.result_eq_ok_iff.2 hv] at hresult
    cases hresult

/-- A request fails at a limit of the reader exactly when it was sent and its last reply is beyond
that limit. -/
theorem eq_unreadable_iff (h : client.Requested method path body es result)
    (limit : Json.Limit) :
    result = .error (.unreadable limit) ↔ ∃ e ∈ es, e.EndsBeyond limit := by
  cases h with
  | noAttempt => simp
  | noAddress => simp
  | sent e =>
    simp only [List.mem_singleton, exists_eq_left]
    exact Exchange.result_eq_unreadable_iff

/-- **A request that can be sent is one exchange**, and has a result exactly when it was done. -/
theorem exists_exchange (h : client.Requested method path body es result)
    (haddress : (client.address? path).isSome = true) (hattempts : 1 ≤ client.maxAttempts) :
    ∃ e, es = [e] ∧ (e.IsDone ↔ ∃ v, result = .ok v) := by
  cases h with
  | noAttempt hnone => omega
  | noAddress hnone =>
    rw [hnone] at haddress
    cases haddress
  | sent e =>
    refine ⟨e, rfl, ?_⟩
    simp only [Exchange.isDone_iff, Exchange.result_eq_ok_iff]

/-- Where no wait is too long, a request that can be sent fails only with a fault of the code host,
or at a limit of the reader. -/
theorem status?_of_error {fault : ApiFault}
    (h : client.Requested method path body es (.error fault))
    (haddress : (client.address? path).isSome = true) (hattempts : 1 ≤ client.maxAttempts)
    (hpause : ∀ n : Nat, (n : Int) < client.maxAttempts → (client.pause? n).isSome = true) :
    (∃ status, fault.status? = some status) ∨ ∃ limit, fault = .unreadable limit := by
  generalize hresult : Except.error fault = result at h
  cases h with
  | noAttempt hnone => omega
  | noAddress hnone =>
    rw [hnone] at haddress
    cases haddress
  | sent e _ _ hlost hwait =>
    refine Exchange.status?_of_result hresult.symm ?_
    rintro rfl
    have hsome := hpause e.lost.length hlost
    rw [hwait hresult.symm] at hsome
    cases hsome

end Requested

/-- **A request of the client is one exchange**, unless it could not be sent. -/
theorem request_run (client : Client σ) (method : String) (hmethod : method.isEmpty = false)
    (path : String) (body : Option Json) (s : Conversation σ) :
    ∃ (es : List Exchange) (result : Except ApiFault Json) (s' : Conversation σ),
      client.Requested method path body es result ∧
      (client.request method path body).run.run s = (result, s') ∧
      client.Logs (es.flatMap Exchange.attempts) s s' := by
  rw [Client.request]
  cases hleft : client.maxAttempts.toNat with
  | zero =>
    rw [attempts_zero]
    exact ⟨[], _, s, .noAttempt (by omega), rfl, .refl client s⟩
  | succ left =>
    cases haddress : client.address? path with
    | none =>
      rw [attempts_noAddress haddress]
      exact ⟨[], _, s, .noAddress haddress, rfl, .refl client s⟩
    | some url =>
      obtain ⟨e, s', he, hlength, hrun, hlogs, hwait⟩ :=
        attempts_run (build?_eq haddress method body) left 0 s
      have hasks : client.Asks method path e.request := by
        rw [he]
        exact ⟨by rw [requestTo, methodOr, hmethod]; rfl, haddress⟩
      have hbody : e.request.body = body.map Json.compact := by
        rw [he]
        rfl
      rw [Nat.zero_add] at hwait
      have hleft' : client.maxAttempts.toNat - 1 = left := by omega
      refine ⟨[e], _, s', .sent e hasks hbody (by omega) ?_, ?_, ?_⟩
      · rw [hleft']
        exact hwait
      · rw [hleft', hrun]
      · rw [List.flatMap_singleton]
        exact hlogs

/-- A request that can be sent is sent a number of times, and nothing else is. -/
theorem request_sends (hattempts : 1 ≤ client.maxAttempts) {path url : String}
    (haddress : client.address? path = some url) (method : String) (body : Option Json)
    (s : Conversation σ) :
    ∃ n, ((client.request method path body).run.run s).2.sent =
      s.sent ++ List.replicate (n + 1) (client.requestTo method url body) := by
  obtain ⟨e, s', he, -, hrun, hlogs, -⟩ :=
    attempts_run (build?_eq haddress method body) (client.maxAttempts.toNat - 1) 0 s
  refine ⟨e.lost.length, ?_⟩
  rw [Client.request, show client.maxAttempts.toNat = client.maxAttempts.toNat - 1 + 1 by omega,
    hrun, hlogs.sent, e.map_fst_attempts, he]

end Client

end LintReport.GitHub
