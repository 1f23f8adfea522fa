import LintReport.Proofs.GitHub.AnyPath
import LintReport.Proofs.GitHub.Backoff
import LintReport.Proofs.GitHub.Exchange
import LintReport.Proofs.GitHub.Upserting

/-!
# Retries

A request is sent again while the code host answers 502, 503 or 504 and attempts are left, and the
first other outcome is final. So one number decides how often it is sent and how often the client
waits: how many of those replies lead the outcomes that the transport has for it. The attempts can
be taken up at each of them: by then the request has been sent as often as there were replies, with
a wait after each.

A reply is read before its status is looked at. Where the reader has no room for it, it is final
whatever its status is, also where that is one of the three, and also where it says that the request
was done.

## Main definitions

* `Client.outcomes`: what a transport has for a request that is sent again and again.
* `leading`: how many replies of an unavailable code host come first.
* `Decides`: what one outcome makes of a request.
* `Client.Retries`: what was sent, how long was waited, and what the request ended in.

## Main results

* `Client.attempts_resume`: **the attempts can be taken up after each leading reply**.
* `decides_single`: any other outcome alone decides the result.
* `Client.request_retries`: **a request is retried exactly while the code host is unavailable**.
* `deepReply_fails`: a reply without room fails a request that was done.
-/

namespace LintReport.GitHub

variable {σ : Type}

/-! ### Leading replies -/

/-- Whether an outcome is a reply of a code host that is unavailable for a while, and there is room
for it. -/
def isTransient : Except String Reply → Bool
  | .ok reply =>
    reply.value.isOk && (reply.status == 502 || reply.status == 503 || reply.status == 504)
  | .error _ => false

/-- How many replies of an unavailable code host come before any other outcome. -/
def leading (outcomes : List (Except String Reply)) : Nat := (outcomes.takeWhile isTransient).length

section Leading

variable {outcome : Except String Reply} {outcomes : List (Except String Reply)}

/-- The client knows these replies by their statuses, once it has read them. -/
theorem isTransient_iff {reply : Reply} :
    isTransient (.ok reply) = true ↔ reply.isUnavailable = true ∧ reply.IsReadable := by
  have hstatus : (reply.status == 502 || reply.status == 503 || reply.status == 504) =
      reply.isUnavailable := by
    simp only [Reply.isUnavailable, unavailableStatuses, List.contains_cons, List.contains_nil,
      Bool.or_false, Bool.or_assoc]
  rw [isTransient, hstatus, Bool.and_eq_true, and_comm, Reply.IsReadable]
  cases reply.value <;> simp [Except.isOk, Except.toBool]

/-- Such a reply is one more leading reply. -/
theorem leading_cons_of_transient (h : isTransient outcome = true) :
    leading (outcome :: outcomes) = leading outcomes + 1 := by
  rw [leading, List.takeWhile_cons_of_pos h, List.length_cons, leading]

/-- Where another outcome comes first, no such reply leads. -/
theorem leading_cons_of_not (h : isTransient outcome = false) :
    leading (outcome :: outcomes) = 0 := by
  rw [leading, List.takeWhile_cons_of_neg (by simp [h]), List.length_nil]

/-- **An outcome is one of the leading replies or the one that follows them** exactly as its number
says. -/
theorem isTransient_of_getElem? :
    ∀ {outcomes : List (Except String Reply)} {k : Nat}, k ≤ leading outcomes →
      outcomes[k]? = some outcome → isTransient outcome = decide (k < leading outcomes)
  | [], k, _, hget => by cases hget
  | first :: rest, k, hk, hget => by
    cases hfirst : isTransient first with
    | false =>
      rw [leading_cons_of_not hfirst, Nat.le_zero] at hk
      subst hk
      rw [List.getElem?_cons_zero, Option.some.injEq] at hget
      rw [← hget, hfirst, leading_cons_of_not hfirst]
      rfl
    | true =>
      rw [leading_cons_of_transient hfirst] at hk ⊢
      cases k with
      | zero =>
        rw [List.getElem?_cons_zero, Option.some.injEq] at hget
        rw [← hget, hfirst]
        simp
      | succ k =>
        rw [List.getElem?_cons_succ] at hget
        rw [isTransient_of_getElem? (Nat.le_of_succ_le_succ hk) hget]
        simp

end Leading

/-! ### What one outcome decides -/

/-- Whether the content of a reply is a value: it is not empty, it is UTF-8, and it is JSON. -/
def Reply.Holds (reply : Reply) (v : Json) : Prop :=
  reply.content ≠ [] ∧ ∃ text, Text.Utf8.decode? reply.content = some text ∧
    Json.parse text = .ok v

/-- Whether the content of a reply is text that the reader has no room for. -/
def Reply.GoesBeyond (reply : Reply) (limit : Json.Limit) : Prop :=
  ∃ text, Text.Utf8.decode? reply.content = some text ∧ Json.parse text = .error (.beyond limit)

/-- Whether a reply has a message: a text that is not empty, under the key for messages. -/
def Reply.Says (reply : Reply) (message : String) : Prop :=
  ∃ v, reply.Holds v ∧ v.field? "message" = some (.str message) ∧ message ≠ ""

/-- **What one outcome makes of a request.** -/
inductive Decides : Except String Reply → Except ApiFault Json → Prop
  /-- A transport that breaks down is told about, with status 0. -/
  | broken (reason : String) : Decides (.error reason) (.error (.failure 0 reason))
  /-- A reply that there is no room for is a fault of the reader, whatever its status. -/
  | beyond {reply : Reply} {limit : Json.Limit} : reply.GoesBeyond limit →
    Decides (.ok reply) (.error (.unreadable limit))
  /-- A request that was done has the value of its reply. -/
  | answered {reply : Reply} {v : Json} : 200 ≤ reply.status → reply.status < 300 →
    reply.Holds v → Decides (.ok reply) (.ok v)
  /-- Without a value it has an empty object. -/
  | empty {reply : Reply} : 200 ≤ reply.status → reply.status < 300 →
    (∀ limit, ¬ reply.GoesBeyond limit) → (∀ v, ¬ reply.Holds v) →
    Decides (.ok reply) (.ok (.obj []))
  /-- A missing permission is a fault of its own. -/
  | forbidden {reply : Reply} {message : String} : reply.status = 403 →
    (∀ limit, ¬ reply.GoesBeyond limit) →
    (reply.Says message ∨
      (∀ text, ¬ reply.Says text) ∧ message = "Request failed with status 403") →
    Decides (.ok reply) (.error (.permission message))
  /-- Every other status is told about. -/
  | refused {reply : Reply} {message : String} :
    ¬ (200 ≤ reply.status ∧ reply.status < 300) → reply.status ≠ 403 →
    (∀ limit, ¬ reply.GoesBeyond limit) →
    (reply.Says message ∨ (∀ text, ¬ reply.Says text) ∧
      message = "Request failed with status " ++ toString reply.status) →
    Decides (.ok reply) (.error (.failure reply.status message))

section Decisions

variable {reply : Reply}

/-- A reply has no value just where its content is text that there is no room for. -/
theorem Reply.goesBeyond_iff {limit : Json.Limit} :
    reply.GoesBeyond limit ↔ reply.value = .error limit := by
  rw [GoesBeyond, value]
  cases Text.Utf8.decode? reply.content with
  | none => simp
  | some text =>
    simp only [Option.some.injEq, exists_eq_left']
    cases Json.parse text with
    | error fault => cases fault <;> simp
    | ok v => simp

/-- A reply with a value is not beyond any limit. -/
theorem Reply.not_goesBeyond {v : Json} (h : reply.value = .ok v) (limit : Json.Limit) :
    ¬ reply.GoesBeyond limit := by
  rw [goesBeyond_iff, h]
  simp

/-- A reply has the value that its content is. -/
theorem Reply.value_of_holds {v : Json} (h : reply.Holds v) : reply.value = .ok v := by
  obtain ⟨-, text, htext, hparse⟩ := h
  rw [value, htext]
  dsimp only
  rw [hparse]

/-- The value of a reply is that of its content, or else an empty object. -/
theorem Reply.holds_or_empty {v : Json} (h : reply.value = .ok v) :
    reply.Holds v ∨ (∀ w, ¬ reply.Holds w) ∧ v = .obj [] := by
  rw [value] at h
  split at h
  · next hnone =>
    refine .inr ⟨?_, (Except.ok.inj h).symm⟩
    rintro w ⟨-, text, htext, -⟩
    rw [hnone] at htext
    cases htext
  · next text htext =>
    split at h
    · next w hparse =>
      obtain rfl := Except.ok.inj h
      refine .inl ⟨?_, text, htext, hparse⟩
      -- content that is a value is not empty: nothing is no JSON
      rintro hempty
      rw [hempty] at htext
      obtain rfl : text = "" := (Option.some.inj htext).symm
      cases hparse
    · next fault hparse =>
      refine .inr ⟨?_, (Except.ok.inj h).symm⟩
      rintro w ⟨-, text', htext', hparse'⟩
      obtain rfl := Option.some.inj (htext.symm.trans htext')
      rw [hparse] at hparse'
      cases hparse'
    · cases h

/-- The message of a reply is the one that its value has. -/
theorem Reply.says_iff {v : Json} (h : reply.value = .ok v) {message : String} :
    reply.Says message ↔
      (v.field? "message").bind Json.text? = some message ∧ message ≠ "" := by
  constructor
  · rintro ⟨w, hw, hmessage, hne⟩
    obtain rfl := Except.ok.inj (h.symm.trans (value_of_holds hw))
    rw [hmessage]
    exact ⟨rfl, hne⟩
  · rintro ⟨hfound, hne⟩
    obtain ⟨w, hfield, htext⟩ := Option.bind_eq_some_iff.1 hfound
    obtain rfl : w = .str message := by
      cases w <;> cases htext
      rfl
    rcases holds_or_empty h with hholds | ⟨-, rfl⟩
    · exact ⟨v, hholds, hfield, hne⟩
    · -- an empty object has no message
      cases hfield

/-- A fault carries the message of a reply, or the words for its status. -/
theorem Reply.exists_fault {v : Json} (h : reply.value = .ok v) :
    ∃ message, (reply.Says message ∨ (∀ text, ¬ reply.Says text) ∧
        message = "Request failed with status " ++ toString reply.status) ∧
      reply.fault v =
        if reply.status == 403 then .permission message else .failure reply.status message := by
  simp only [says_iff h, fault]
  cases hfound : (v.field? "message").bind Json.text? with
  | none => exact ⟨_, .inr ⟨(fun _ h => Option.some_ne_none _ h.1.symm), rfl⟩, rfl⟩
  | some message =>
    by_cases hempty : message = ""
    · subst hempty
      exact ⟨_, .inr ⟨fun _ h => h.2 (Option.some.inj h.1).symm, rfl⟩, rfl⟩
    · refine ⟨message, .inl ⟨rfl, hempty⟩, ?_⟩
      have hkept : message.isEmpty = false := by simpa using hempty
      simp only [hkept, Bool.false_eq_true, if_false]

/-- Where no attempt is left, an unavailable code host is told about with its last status. -/
theorem single_of_isTransient {outcome : Except String Reply} (h : isTransient outcome = true)
    (client : Client σ) (request : Request) :
    ∃ reply, outcome = .ok reply ∧ (Exchange.single request outcome).result client 0 =
      .error (.unavailable reply.status client.maxAttempts) := by
  cases outcome with
  | error reason => cases h
  | ok reply =>
    obtain ⟨hunavailable, v, hvalue⟩ := isTransient_iff.1 h
    refine ⟨reply, rfl, ?_⟩
    simp only [Exchange.result, Exchange.single, hvalue,
      Reply.isDone_of_isUnavailable hunavailable, hunavailable, Bool.false_eq_true, if_false,
      if_true, Nat.not_lt_zero]

/-- **Any other outcome alone decides the result.** -/
theorem decides_single {outcome : Except String Reply} (h : isTransient outcome = false)
    {client : Client σ} (request : Request) (left : Nat) :
    Decides outcome ((Exchange.single request outcome).result client left) := by
  rw [Exchange.result, Exchange.single]
  cases outcome with
  | error reason => exact .broken reason
  | ok reply =>
    dsimp only
    cases hvalue : reply.value with
    | error limit => exact .beyond (Reply.goesBeyond_iff.2 hvalue)
    | ok v =>
      have hroom := Reply.not_goesBeyond hvalue
      have hunavailable : reply.isUnavailable = false := by
        rw [Bool.eq_false_iff]
        intro hunavailable
        rw [isTransient_iff.2 ⟨hunavailable, v, hvalue⟩] at h
        cases h
      dsimp only
      cases hdone : reply.isDone with
      | true =>
        rw [Reply.isDone, Bool.and_eq_true, decide_eq_true_eq, decide_eq_true_eq] at hdone
        rw [if_pos rfl]
        rcases Reply.holds_or_empty hvalue with hholds | ⟨hnone, rfl⟩
        · exact .answered hdone.1 hdone.2 hholds
        · exact .empty hdone.1 hdone.2 hroom hnone
      | false =>
        rw [hunavailable, if_neg Bool.false_ne_true, if_neg Bool.false_ne_true]
        obtain ⟨message, hmessage, hfault⟩ := Reply.exists_fault hvalue
        rw [hfault]
        by_cases hforbidden : reply.status = 403
        · rw [if_pos (by simpa using hforbidden)]
          rw [hforbidden] at hmessage
          exact .forbidden hforbidden hroom hmessage
        · rw [if_neg (by simpa using hforbidden)]
          refine .refused (fun hrange => ?_) hforbidden hroom hmessage
          rw [Reply.isDone, decide_eq_true hrange.1, decide_eq_true hrange.2] at hdone
          exact Bool.noConfusion hdone

end Decisions

namespace Client

/-! ### Retries -/

/-- The state of a transport that has carried a request a number of times. -/
def carried (client : Client σ) (request : Request) (t : σ) : Nat → σ
  | 0 => t
  | k + 1 => (client.carry request (client.carried request t k)).2

/-- The first outcomes that a transport has for a request that is sent again and again. -/
def outcomes (client : Client σ) (request : Request) (count : Nat) (t : σ) :
    List (Except String Reply) :=
  (List.range count).map fun k => (client.carry request (client.carried request t k)).1

/-- **A request and its retries**: what was sent, how long was waited, and what it ended in, by the
outcomes that the transport has for it. -/
structure Retries (client : Client σ) (method path : String) (body : Option Json)
    (request : Request) (outcomes : List (Except String Reply)) (s s' : Conversation σ)
    (result : Except ApiFault Json) : Prop where
  /-- The same is sent once more than the code host was unavailable, if it may be. -/
  sent : s'.sent =
    s.sent ++ List.replicate (min (leading outcomes + 1) client.maxAttempts.toNat) request
  /-- There is one wait less than there are attempts, and each has its own length. -/
  waited : s'.waited.map some = s.waited.map some ++
    (List.range (min (leading outcomes + 1) client.maxAttempts.toNat - 1)).map client.delay?
  /-- Before each attempt there were as many waits as attempts. -/
  resumed : ∀ k < min (leading outcomes + 1) client.maxAttempts.toNat, ∃ t : Conversation σ,
    t.transport = client.carried request s.transport k ∧
    t.sent = s.sent ++ List.replicate k request ∧ t.waited.length = s.waited.length + k ∧
    (client.attempts method path body (client.maxAttempts.toNat - k) k).run.run t = (result, s')
  /-- Where the code host is unavailable at all attempts, the status of the last reply is told. -/
  exhausted : client.maxAttempts ≤ leading outcomes → ∃ reply,
    outcomes[client.maxAttempts.toNat - 1]? = some (.ok reply) ∧
    result = .error (.unavailable reply.status client.maxAttempts)
  /-- Otherwise the outcome behind those replies alone decides. -/
  decided : leading outcomes < client.maxAttempts → ∃ outcome,
    outcomes[leading outcomes]? = some outcome ∧ Decides outcome result
  /-- An attempt was made. -/
  attempted : result ≠ .error .noAttempt

section Runs

variable {client : Client σ} {method path : String} {body : Option Json} {request : Request}
  {s : Conversation σ} {count : Nat}

/-- An outcome is what the transport has for the request after the attempts before. -/
theorem getElem?_outcomes (client : Client σ) (request : Request) {k : Nat} (h : k < count)
    (t : σ) :
    (client.outcomes request count t)[k]? =
      some (client.carry request (client.carried request t k)).1 := by
  rw [outcomes, List.getElem?_map, List.getElem?_range h, Option.map_some]

/-- A wait whose words are known has a length. -/
theorem delay?_of_pause? {attempt : Nat} {pause : Quantity × String}
    (h : client.pause? attempt = some pause) : client.delay? attempt = some pause.1 := by
  rw [pause?] at h
  simp only [bind, Option.bind_eq_some_iff, pure, Option.some.injEq] at h
  obtain ⟨delay, hdelay, shown, -, rfl⟩ := h
  exact hdelay

/-- **The attempts can be taken up after each leading reply**: then the request has been sent once
for each of them, and there was a wait after each. -/
theorem attempts_resume (hbuild : client.build? method path body = some request) {n : Nat}
    (hcount : n ≤ count) (hpause : ∀ attempt, attempt + 1 < n → (client.pause? attempt).isSome) :
    ∀ k, k ≤ leading (client.outcomes request count s.transport) → k < n →
      ∃ t : Conversation σ, t.transport = client.carried request s.transport k ∧
        t.sent = s.sent ++ List.replicate k request ∧
        t.waited.map some = s.waited.map some ++ (List.range k).map client.delay? ∧
        (client.attempts method path body n 0).run.run s =
          (client.attempts method path body (n - k) k).run.run t
  | 0, _, _ => ⟨s, rfl, by simp, by simp, rfl⟩
  | k + 1, hleading, hk => by
    obtain ⟨t, htransport, hsent, hwaited, hrun⟩ :=
      attempts_resume hbuild hcount hpause k (Nat.le_of_succ_le hleading) (Nat.lt_of_succ_lt hk)
    rcases hcarry : client.carry request t.transport with ⟨outcome, after⟩
    have hget := client.getElem?_outcomes request
      (Nat.lt_of_lt_of_le (Nat.lt_of_succ_lt hk) hcount) s.transport
    rw [← htransport, hcarry] at hget
    have htransient := isTransient_of_getElem? (Nat.le_of_succ_le hleading) hget
    rw [decide_eq_true (Nat.lt_of_succ_le hleading)] at htransient
    cases outcome with
    | error reason => cases htransient
    | ok reply =>
      obtain ⟨hunavailable, v, hvalue⟩ := isTransient_iff.1 htransient
      obtain ⟨pause, hsome⟩ := Option.isSome_iff_exists.1 (hpause k hk)
      refine ⟨afterWait client k reply.status pause (afterSend t request after), ?_, ?_, ?_, ?_⟩
      · rw [carried, ← htransport, hcarry]
        rfl
      · rw [List.replicate_succ', ← List.append_assoc, ← hsent]
        rfl
      · rw [List.range_succ, List.map_append, ← List.append_assoc, ← hwaited, List.map_singleton,
          delay?_of_pause? hsome, ← List.map_singleton, ← List.map_append]
        rfl
      · obtain ⟨left, hleft⟩ : ∃ left, n - k = left + 2 := ⟨n - k - 2, by omega⟩
        rw [hrun, hleft, attempts_again hbuild hcarry hvalue
          (Reply.isDone_of_isUnavailable hunavailable) hunavailable hsome,
          show n - (k + 1) = left + 1 by omega]

/-- **The last attempt** comes after the leading replies, as far as attempts are left. -/
theorem attempts_finish (hbuild : client.build? method path body = some request) {left : Nat}
    (hcount : left + 1 ≤ count)
    (hpause : ∀ attempt, attempt + 1 < left + 1 → (client.pause? attempt).isSome)
    {k : Nat} (hk : k = min (leading (client.outcomes request count s.transport)) left) :
    ∃ (outcome : Except String Reply) (t : Conversation σ) (after : σ),
      (client.outcomes request count s.transport)[k]? = some outcome ∧
      t.sent = s.sent ++ List.replicate k request ∧
      t.waited.map some = s.waited.map some ++ (List.range k).map client.delay? ∧
      (client.attempts method path body (left + 1) 0).run.run s =
        ((Exchange.single request outcome).result client (left - k),
          afterSend t request after) := by
  obtain ⟨t, htransport, hsent, hwaited, hrun⟩ :=
    attempts_resume (s := s) hbuild hcount hpause k (by omega) (by omega)
  rcases hcarry : client.carry request t.transport with ⟨outcome, after⟩
  have hget := client.getElem?_outcomes request (show k < count by omega) s.transport
  rw [← htransport, hcarry] at hget
  refine ⟨outcome, t, after, hget, hsent, hwaited, ?_⟩
  rw [hrun, show left + 1 - k = left - k + 1 by omega]
  refine attempts_last hbuild hcarry ?_
  rintro reply rfl hunavailable hreadable
  have htransient := isTransient_iff.2 ⟨hunavailable, hreadable⟩
  rw [isTransient_of_getElem? (by omega) hget, decide_eq_true_eq] at htransient
  exact .inl (by omega)

/-- A request that can be sent is retried while no wait is too long for a number. -/
theorem retries_of_build (hbuild : client.build? method path body = some request)
    (hmin : 1 ≤ client.maxAttempts) (hcount : client.maxAttempts ≤ count)
    (hpause : ∀ attempt : Nat, (attempt : Int) + 1 < client.maxAttempts →
      (client.pause? attempt).isSome) (s : Conversation σ) :
    ∃ result s', (client.request method path body).run.run s = (result, s') ∧
      client.Retries method path body request (client.outcomes request count s.transport) s s'
        result := by
  obtain ⟨left, hn⟩ : ∃ left, client.maxAttempts.toNat = left + 1 :=
    ⟨client.maxAttempts.toNat - 1, by omega⟩
  have hleft : left + 1 ≤ count := by omega
  have hpause' : ∀ attempt, attempt + 1 < left + 1 → (client.pause? attempt).isSome :=
    fun attempt hattempt => hpause attempt (by omega)
  obtain ⟨outcome, t, after, hget, hsent, hwaited, hrun⟩ :=
    attempts_finish (s := s) hbuild hleft hpause' rfl
  have hresume := attempts_resume (s := s) hbuild hleft hpause'
  generalize client.outcomes request count s.transport = outcomes at *
  obtain ⟨k, hk⟩ : ∃ k, min (leading outcomes) left = k := ⟨_, rfl⟩
  rw [hk] at hget hsent hwaited hrun
  have htries : min (leading outcomes + 1) client.maxAttempts.toNat = k + 1 := by omega
  have htransient := isTransient_of_getElem? (by omega) hget
  have hdecided : (leading outcomes : Int) < client.maxAttempts → ∃ outcome',
      outcomes[leading outcomes]? = some outcome' ∧
        Decides outcome' ((Exchange.single request outcome).result client (left - k)) := by
    intro hbefore
    obtain rfl : leading outcomes = k := by omega
    exact ⟨outcome, hget, decides_single (by simpa using htransient) request _⟩
  have hexhausted : client.maxAttempts ≤ leading outcomes → ∃ reply,
      outcomes[client.maxAttempts.toNat - 1]? = some (.ok reply) ∧
        (Exchange.single request outcome).result client (left - k) =
          .error (.unavailable reply.status client.maxAttempts) := by
    intro hall
    rw [decide_eq_true (show k < leading outcomes by omega)] at htransient
    obtain ⟨reply, rfl, hresult⟩ := single_of_isTransient htransient client request
    rw [show left - k = 0 by omega, show client.maxAttempts.toNat - 1 = k by omega]
    exact ⟨reply, hget, hresult⟩
  refine ⟨_, afterSend t request after, ?_, ?_, ?_, ?_, hexhausted, hdecided, ?_⟩
  · rw [Client.request, hn, hrun]
  · rw [htries, List.replicate_succ', ← List.append_assoc, ← hsent]
    rfl
  · rw [htries, Nat.add_sub_cancel]
    exact hwaited
  · intro i hi
    obtain ⟨t', htransport', hsent', hwaited', hrun'⟩ := hresume i (by omega) (by omega)
    refine ⟨t', htransport', hsent', ?_, ?_⟩
    · have hlength := congrArg List.length hwaited'
      simpa using hlength
    · rw [hn, ← hrun', hrun]
  · intro hnone
    rcases lt_or_ge (leading outcomes : Int) client.maxAttempts with hbefore | hall
    · obtain ⟨outcome', -, hdecides⟩ := hdecided hbefore
      rw [hnone] at hdecides
      cases hdecides
    · obtain ⟨reply, -, hresult⟩ := hexhausted hall
      rw [hnone] at hresult
      cases hresult

end Runs

/-- **A request is retried exactly while the code host is unavailable.** With the usual delay and at
most a thousand attempts, a client whose code host has a scheme sends the same request until an
outcome is no reply of an unavailable code host that there is room for, or no attempt is left. -/
theorem request_retries (client : Client σ) (hscheme : Request.OpensWithScheme client.apiUrl)
    (hdelay : client.baseDelay = .float (.ofRatio false 1 1)) {jitter : Binary64}
    (hjitter : client.jitter = .float jitter) (hmin : 1 ≤ client.maxAttempts)
    (hmax : client.maxAttempts ≤ 1000) (method path : String) (body : Option Json)
    (s : Conversation σ) (count : Nat) (hcount : client.maxAttempts ≤ count) :
    ∃ request result s', client.build? method path body = some request ∧
      (client.request method path body).run.run s = (result, s') ∧
      client.Retries method path body request (client.outcomes request count s.transport) s s'
        result := by
  obtain ⟨url, hurl⟩ :=
    Option.isSome_iff_exists.1 (address?_isSome_of_opensWithScheme hscheme path)
  have hbuild := build?_eq hurl method body
  obtain ⟨result, s', hrun, hretries⟩ := retries_of_build hbuild hmin hcount
    (fun attempt hattempt => pause?_isSome hdelay hjitter (by omega)) s
  exact ⟨_, result, s', hbuild, hrun, hretries⟩

end Client

/-- A code host that is unavailable twice and then does not know what it is asked for. -/
def flakyReplies : List Reply := [⟨502, []⟩, ⟨503, [123, 125]⟩, ⟨404, []⟩]

/-- Behind two replies of an unavailable code host the third one decides. -/
theorem flakyReplies_retried :
    ∃ request message s', (scripted.request "GET" "/x").run.run { transport := flakyReplies } =
        (.error (.failure 404 message), s') ∧
      s'.sent = List.replicate 3 request ∧ s'.waited.length = 2 := by
  have hscheme : Request.OpensWithScheme scripted.apiUrl :=
    Client.opensWithScheme_iff.2 (Client.address?_isSome
      ⟨"https".toList, "//api.github.com".toList, by decide, by decide,
        List.all_eq_true.1 (by decide)⟩)
  obtain ⟨request, result, s', -, hrun, hretries⟩ :=
    scripted.request_retries hscheme rfl rfl (by decide) (by decide) "GET" "/x" none
      { transport := flakyReplies } 3 (by decide)
  have houtcomes : scripted.outcomes request 3 flakyReplies = flakyReplies.map .ok := rfl
  rw [houtcomes] at hretries
  have hwaited := congrArg List.length hretries.waited
  obtain ⟨outcome, hget, hdecides⟩ := hretries.decided (by decide)
  cases hget
  cases hdecides with
  | beyond hbeyond =>
    have hvalue : (⟨404, []⟩ : Reply).value = .ok (.obj []) := rfl
    exact absurd hbeyond (Reply.not_goesBeyond hvalue _)
  | answered _ hdone => exact absurd hdone (by decide)
  | empty _ hdone => exact absurd hdone (by decide)
  | forbidden hforbidden => cases hforbidden
  | refused =>
    refine ⟨request, _, s', hrun, hretries.sent, ?_⟩
    rw [List.length_map] at hwaited
    rw [hwaited]
    rfl

/-- **A reply without room fails a request that was done**, with a fault that has no status, where
other content that is no JSON counts as an empty object. -/
theorem deepReply_fails :
    deepReply.isDone = true ∧
      ((scripted.request "GET" "/x").run.run { transport := [deepReply] }).1 =
        .error (.unreadable .nesting) ∧
      (ApiFault.unreadable .nesting).status? = none := by
  have hscheme : Request.OpensWithScheme scripted.apiUrl :=
    Client.opensWithScheme_iff.2 (Client.address?_isSome
      ⟨"https".toList, "//api.github.com".toList, by decide, by decide,
        List.all_eq_true.1 (by decide)⟩)
  obtain ⟨url, hurl⟩ := Option.isSome_iff_exists.1
    (Client.address?_isSome_of_opensWithScheme hscheme "/x")
  have hrun : (scripted.request "GET" "/x").run.run { transport := [deepReply] } = _ :=
    Client.attempts_unreadable (Client.build?_eq hurl "GET" none) rfl value_deepReply 2 0
  rw [hrun]
  exact ⟨rfl, rfl, rfl⟩

end LintReport.GitHub
