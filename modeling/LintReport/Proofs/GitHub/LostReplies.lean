import LintReport.Proofs.GitHub.Desk

/-!
# Lost Replies

A code host may do what a request asks and still answer that it is unavailable. The client cannot
tell, so it sends the same request again, also where that request adds a comment. How many comments
one upsert adds is therefore a matter of how many of its attempts are answered with success only
after others were not: the attempts go on up to the first success, the last allowed attempt, or a
wait that is too long for a number, and every one of them adds a comment.

## Main results

* `Lossy.attempts_run`: **every attempt to post adds a comment**.
* `Lossy.upsert_run`: one upsert adds as many comments as it makes attempts.
* `Lossy.upsert_adds_one_iff`: **it adds one comment exactly when it makes one attempt**.
* `LossyDesk.one_lost_reply_adds_two`: one lost reply is enough for a second comment.
-/

namespace LintReport.GitHub

open StoredComment

variable {σ : Type}

/-- **A service that loses replies.** It adds a comment for every posted one, and what it then
answers is success or one of the statuses of an unavailable code host, with a content that there is
room for. `answers` are the statuses of the next answers to posted comments. -/
structure Lossy (client : Client σ) (pr : PullRequest) (comments : σ → List StoredComment)
    (answers : σ → Nat → Int) : Prop extends Legible client pr comments answers where
  /-- An answer is success, or the code host is unavailable. -/
  status_mem : ∀ s i, answers s i ∈ [201, 502, 503, 504]
  /-- A comment that is posted is added, whatever is answered. -/
  posts : ∀ (s : σ) (request : Request) (body : String),
    client.Asks "POST" pr.commentsPath request → request.Carries body →
    ∃ reply v s' id, client.carry request s = (.ok reply, s') ∧ reply.status = answers s 0 ∧
      reply.value = .ok v ∧ comments s' = comments s ++ [⟨id, body⟩] ∧
      ∀ i, answers s' i = answers s (i + 1)

/-- **Which attempt is the last one**, counted from zero and from the attempt `first` on: all
attempts before it were lost and followed by a wait, and after it there is a success, no further
attempt, or no wait of a length that can be known. -/
structure Client.IsLast (client : Client σ) (answers : Nat → Int) (first left last : Nat) :
    Prop where
  lost : ∀ i < last, answers i ≠ 201
  waited : ∀ i < last, client.pause? (first + i) ≠ none
  last_le : last ≤ left
  ended : answers last = 201 ∨ last = left ∨ client.pause? (first + last) = none

section Attempts

variable {client : Client σ} {pr : PullRequest} {comments : σ → List StoredComment}
  {answers : σ → Nat → Int}

/-- A reply with the status of a success is done. -/
theorem isDone_of_status {reply : Reply} (h : reply.status = 201) : reply.isDone = true := by
  rw [Reply.isDone, h]
  decide

/-- Every other answer of a lossy service says that it is unavailable. -/
theorem isUnavailable_of_status {reply : Reply} (h : reply.status ∈ [201, 502, 503, 504])
    (hne : reply.status ≠ 201) : reply.isDone = false ∧ reply.isUnavailable = true := by
  have hcases : reply.status = 502 ∨ reply.status = 503 ∨ reply.status = 504 := by
    simpa [hne] using h
  rw [Reply.isDone, Reply.isUnavailable]
  rcases hcases with h | h | h <;> rw [h] <;> decide

/-- **What a run of attempts adds**: one comment with the body for every attempt up to the last one,
and the run succeeds when the last attempt does. -/
def Adds {α : Type} (client : Client σ) (comments : σ → List StoredComment)
    (answers : σ → Nat → Int) (body : String) (first left : Nat) (before : σ)
    (run : Except ApiFault α × Conversation σ) : Prop :=
  ∃ last added, client.IsLast (answers before) first left last ∧
    comments run.2.transport = comments before ++ added ∧ added.length = last + 1 ∧
    (∀ c ∈ added, c.body = body) ∧ (run.1.isOk = true ↔ answers before last = 201)

variable {α : Type} {body : String} {first left : Nat} {before : σ}

/-- An attempt that is the last one adds one comment. -/
theorem Adds.of_last {run : Except ApiFault α × Conversation σ} {id : Int}
    (hadded : comments run.2.transport = comments before ++ [⟨id, body⟩])
    (hend : answers before 0 = 201 ∨ left = 0 ∨ client.pause? first = none)
    (hok : run.1.isOk = true ↔ answers before 0 = 201) :
    Adds client comments answers body first left before run := by
  have hended : answers before 0 = 201 ∨ 0 = left ∨ client.pause? (first + 0) = none := by
    rcases hend with h | h | h
    · exact .inl h
    · exact .inr (.inl h.symm)
    · exact .inr (.inr h)
  refine ⟨0, [⟨id, body⟩], ⟨?_, ?_, Nat.zero_le left, hended⟩, hadded, rfl, ?_, hok⟩
  · intro i hi
    exact absurd hi (Nat.not_lt_zero i)
  · intro i hi
    exact absurd hi (Nat.not_lt_zero i)
  · intro c hc
    rw [List.mem_singleton.1 hc]

/-- A lost attempt adds one comment to those of the attempts after it. -/
theorem Adds.of_lost {run : Except ApiFault α × Conversation σ} {next : σ} {id : Int}
    (hadded : comments next = comments before ++ [⟨id, body⟩])
    (hshift : ∀ i, answers next i = answers before (i + 1)) (hlost : answers before 0 ≠ 201)
    (hwait : client.pause? first ≠ none)
    (h : Adds client comments answers body (first + 1) left next run) :
    Adds client comments answers body first (left + 1) before run := by
  obtain ⟨last, added, hlast, hafter, hlength, hbodies, hok⟩ := h
  have hnext (i : Nat) : first + (i + 1) = first + 1 + i := by omega
  refine ⟨last + 1, ⟨id, body⟩ :: added, ⟨?_, ?_, Nat.succ_le_succ hlast.last_le, ?_⟩, ?_, ?_, ?_,
    ?_⟩
  · intro i hi
    cases i with
    | zero => exact hlost
    | succ i =>
      rw [← hshift]
      exact hlast.lost i (Nat.lt_of_succ_lt_succ hi)
  · intro i hi
    cases i with
    | zero => exact hwait
    | succ i =>
      rw [hnext]
      exact hlast.waited i (Nat.lt_of_succ_lt_succ hi)
  · rw [← hshift, hnext]
    rcases hlast.ended with h | h | h
    · exact .inl h
    · exact .inr (.inl (congrArg (· + 1) h))
    · exact .inr (.inr h)
  · rw [hafter, hadded, List.append_assoc]
    rfl
  · rw [List.length_cons, hlength]
  · exact List.forall_mem_cons.2 ⟨rfl, hbodies⟩
  · rw [hok, hshift]

variable (hservice : Lossy client pr comments answers)

include hservice

/-- **Every attempt to post adds a comment.** -/
theorem Lossy.attempts_run (body : String) (left : Nat) :
    ∀ (attempt : Nat) (s : Conversation σ),
      Adds client comments answers body attempt left s.transport
        ((client.attempts "POST" pr.commentsPath (some (Client.content body)) (left + 1)
          attempt).run.run s) := by
  obtain ⟨url, hurl⟩ := Option.isSome_iff_exists.1 (hservice.reachable pr.commentsPath)
  have hbuild := Client.build?_eq hurl "POST" (some (Client.content body))
  have hpost (t : σ) := hservice.posts t _ body ⟨rfl, hurl⟩
    (Request.carries_content (client.requestTo_body "POST" url (some (Client.content body))))
  -- the first of the attempts that are left decides whether there is another one
  induction left with
  | zero =>
    intro attempt s
    obtain ⟨reply, v, t, id, hcarry, hstatus, hvalue, hadded, -⟩ := hpost s.transport
    by_cases hfirst : answers s.transport 0 = 201
    · rw [Client.attempts_done hbuild hcarry hvalue (isDone_of_status (hstatus.trans hfirst))]
      exact .of_last hadded (.inl hfirst) (iff_of_true rfl hfirst)
    · have hmem := hservice.status_mem s.transport 0
      rw [← hstatus] at hmem hfirst
      obtain ⟨hdone, hunavailable⟩ := isUnavailable_of_status hmem hfirst
      rw [hstatus] at hfirst
      rw [Client.attempts_exhausted hbuild hcarry hvalue hdone hunavailable]
      exact .of_last hadded (.inr (.inl rfl)) (iff_of_false Bool.false_ne_true hfirst)
  | succ left ih =>
    intro attempt s
    obtain ⟨reply, v, t, id, hcarry, hstatus, hvalue, hadded, hshift⟩ := hpost s.transport
    by_cases hfirst : answers s.transport 0 = 201
    · rw [Client.attempts_done hbuild hcarry hvalue (isDone_of_status (hstatus.trans hfirst))]
      exact .of_last hadded (.inl hfirst) (iff_of_true rfl hfirst)
    · have hmem := hservice.status_mem s.transport 0
      rw [← hstatus] at hmem hfirst
      obtain ⟨hdone, hunavailable⟩ := isUnavailable_of_status hmem hfirst
      rw [hstatus] at hfirst
      cases hpause : client.pause? attempt with
      | none =>
        rw [Client.attempts_delayOverflow hbuild hcarry hvalue hdone hunavailable hpause]
        exact .of_last hadded (.inr (.inr hpause)) (iff_of_false Bool.false_ne_true hfirst)
      | some pause =>
        rw [Client.attempts_again hbuild hcarry hvalue hdone hunavailable hpause]
        have hrest := ih (attempt + 1) (client.afterWait attempt reply.status pause
          (Client.afterSend s (client.requestTo "POST" url (some (Client.content body))) t))
        have hwait : client.pause? attempt ≠ none := by
          rw [hpause]
          exact Option.some_ne_none pause
        exact .of_lost hadded hshift hfirst hwait hrest

end Attempts

/-! ### A desk that loses replies -/

/-- Comments whose numbers can be read, and the statuses of the next answers to posted comments. -/
structure LossyDesk where
  comments : List StoredComment := []
  short : ∀ id ∈ comments.map (·.id), Numeral.isShort id = true := by decide
  answers : Nat → Int
  status_mem : ∀ i, answers i ∈ [201, 502, 503, 504]

namespace LossyDesk

open Desk (host shown reply)

/-- The number of the next comment. Where no short one is free, a number is used again. -/
def nextId (comments : List StoredComment) : Int :=
  if Numeral.isShort (Desk.nextId comments) then Desk.nextId comments else 0

/-- It is short. -/
theorem isShort_nextId (comments : List StoredComment) :
    Numeral.isShort (nextId comments) = true := by
  rw [nextId]
  split
  · next hshort => exact hshort
  · decide

/-- The answer of a desk, with the status that it comes with where a comment is posted. -/
def carry (pr : PullRequest) : Transport LossyDesk := fun request s =>
  if request.method = "GET" then
    (.ok (reply 200 (.arr ((Desk.pageAt request.url s.comments).map shown))), s)
  else
    match Desk.written? request with
    | none => (.ok (reply 422 (.obj [])), s)
    | some body =>
      if request.method = "PATCH" then
        (.ok (reply 200 (.obj [])),
          { s with
            comments := Desk.editAt pr request.url body s.comments
            short := by
              rw [Desk.map_id_editAt]
              exact s.short })
      else
        (.ok (reply (s.answers 0) (shown ⟨nextId s.comments, body⟩)),
          { comments := s.comments ++ [⟨nextId s.comments, body⟩]
            short := by
              rw [List.map_append, List.forall_mem_append]
              exact ⟨s.short, List.forall_mem_singleton.2 (isShort_nextId s.comments)⟩
            answers := fun i => s.answers (i + 1)
            status_mem := fun i => s.status_mem (i + 1) })

/-- A client that talks to a desk that loses replies. -/
def client (pr : PullRequest) : Client LossyDesk where
  carry := carry pr
  token := "t"

/-- **A desk that loses replies is a lossy service.** -/
theorem lossy (pr : PullRequest) : Lossy (client pr) pr comments answers where
  reachable := (Desk.faithful pr).reachable
  lists := by
    rintro s request perPage page - - ⟨hmethod, haddress⟩
    have hurl : host ++ Client.pagePath pr perPage page = request.url :=
      Option.some.inj ((Desk.address?_pagePath pr perPage page).symm.trans haddress)
    have hcarry : (client pr).carry request s =
        (.ok (reply 200 (.arr ((Desk.pageAt request.url s.comments).map shown))), s) := by
      change carry pr request s = _
      rw [carry, if_pos hmethod]
    rw [← hurl] at hcarry
    exact ⟨_, s, ⟨_, hcarry, rfl, Desk.value_page s.short pr perPage page⟩, rfl, rfl,
      Desk.shows_shown _⟩
  status_mem := LossyDesk.status_mem
  posts := by
    rintro s request body ⟨hmethod, -⟩ hcarries
    have hget : request.method ≠ "GET" := by
      rw [hmethod]
      decide
    have hpatch : request.method ≠ "PATCH" := by
      rw [hmethod]
      decide
    have hcarry : ∃ t, (client pr).carry request s =
          (.ok (reply (s.answers 0) (shown ⟨nextId s.comments, body⟩)), t) ∧
        t.comments = s.comments ++ [⟨nextId s.comments, body⟩] ∧
        ∀ i, t.answers i = s.answers (i + 1) := by
      change ∃ t, carry pr request s = _ ∧ _
      rw [carry, if_neg hget, Desk.written?_of_carries hcarries]
      dsimp only
      rw [if_neg hpatch]
      exact ⟨_, rfl, rfl, fun _ => rfl⟩
    obtain ⟨t, hcarry, hadded, hshift⟩ := hcarry
    have hread : Json.Readable (shown ⟨nextId s.comments, body⟩) :=
      (Desk.readable_shown [⟨nextId s.comments, body⟩]).1
    have hfit : Json.Fits Json.depthLimit (shown ⟨nextId s.comments, body⟩) :=
      ⟨by decide, isShort_nextId s.comments, trivial, trivial⟩
    exact ⟨_, _, t, _, hcarry, rfl, Reply.value_encode hread hfit _, hadded, hshift⟩

/-- A desk with one comment that loses the reply to the first comment that is posted. -/
def losesOne : LossyDesk where
  comments := Desk.sampleDesk.comments
  answers i := if i = 0 then 502 else 201
  status_mem i := by split <;> decide

end LossyDesk

/-! ### One upsert -/

section Upserts

variable {client : Client σ} {pr : PullRequest} {comments : σ → List StoredComment}
  {answers : σ → Nat → Int} (hservice : Lossy client pr comments answers)
  (hattempts : 1 ≤ client.maxAttempts)

include hservice hattempts

/-- **One upsert adds as many comments as it makes attempts**, where no comment is marked. -/
theorem Lossy.upsert_run {marker : String} (body : String) (s : Conversation σ)
    (hnone : (comments s.transport).any (isMarked marker) = false) :
    Adds client comments answers body 0 (client.maxAttempts.toNat - 1) s.transport
      ((client.upsert pr marker body).run.run s) := by
  obtain ⟨listing, s', hlist, hsame, hkept, hfind⟩ :=
    hservice.find_none_run hattempts marker s hnone
  have hcount : client.maxAttempts.toNat = client.maxAttempts.toNat - 1 + 1 := by omega
  have hpost := hservice.attempts_run body (client.maxAttempts.toNat - 1) 0 s'
  rw [← hcount, ← Client.request] at hpost
  rw [Adds, hsame, hkept] at hpost
  obtain ⟨last, added, hlast, hafter, hlength, hbodies, hok⟩ := hpost
  obtain ⟨result, hupsert, hresult⟩ := Client.upsert_post_run hlist hfind body
  rw [Adds, hupsert, hresult]
  exact ⟨last, added, hlast, hafter, hlength, hbodies, hok⟩

/-- **One upsert adds one comment exactly when it makes one attempt.** Where no comment is marked,
an upsert adds a comment for each of its attempts to post, so it adds no more than the attempts it
is allowed, and it adds more than one comment unless the first attempt is answered with success, is
the only one that is allowed, or cannot be followed by a wait. -/
theorem Lossy.upsert_adds_one_iff {marker : String} (body : String) (s : Conversation σ)
    (hnone : (comments s.transport).any (isMarked marker) = false) :
    ∃ last added,
      client.IsLast (answers s.transport) 0 (client.maxAttempts.toNat - 1) last ∧
      comments ((client.upsert pr marker body).run.run s).2.transport =
        comments s.transport ++ added ∧
      added.length = last + 1 ∧ (∀ c ∈ added, c.body = body) ∧
      (((client.upsert pr marker body).run.run s).1.isOk = true ↔
        answers s.transport last = 201) ∧
      (added.length : Int) ≤ client.maxAttempts ∧
      (added.length ≤ 1 ↔
        answers s.transport 0 = 201 ∨ client.maxAttempts = 1 ∨ client.pause? 0 = none) := by
  obtain ⟨last, added, hlast, hafter, hlength, hbodies, hok⟩ :=
    hservice.upsert_run hattempts body s hnone
  have hbound := hlast.last_le
  refine ⟨last, added, hlast, hafter, hlength, hbodies, hok, by omega, ?_⟩
  constructor
  · intro hone
    obtain rfl : last = 0 := by omega
    rcases hlast.ended with h | h | h
    · exact .inl h
    · exact .inr (.inl (by omega))
    · exact .inr (.inr h)
  · intro hstop
    by_contra hmore
    have hpos : 0 < last := by omega
    rcases hstop with h | h | h
    · exact hlast.lost 0 hpos h
    · omega
    · exact hlast.waited 0 hpos h

end Upserts

namespace LossyDesk

/-- The first wait of a client has a length. -/
theorem pause?_zero : (client Desk.samplePullRequest).pause? 0 ≠ none := by
  rw [← Option.isSome_iff_ne_none]
  decide +kernel

/-- The desk that loses one reply gets more than one comment, and no more than three. -/
theorem losesOne_adds_more :
    ∃ added, comments (((client Desk.samplePullRequest).upsert Desk.samplePullRequest
        "<!-- m -->" "hi").run.run ⟨losesOne, [], [], []⟩).2.transport =
          comments losesOne ++ added ∧
      (added.length : Int) ≤ 3 ∧ 1 < added.length := by
  obtain ⟨last, added, -, hafter, -, -, -, hbound, hiff⟩ :=
    (lossy Desk.samplePullRequest).upsert_adds_one_iff (by decide) "hi" ⟨losesOne, [], [], []⟩
      (by decide : (comments losesOne).any (isMarked "<!-- m -->") = false)
  refine ⟨added, hafter, hbound, Nat.lt_of_not_le fun hone => ?_⟩
  rcases hiff.1 hone with h | h | h
  · exact absurd h (by decide)
  · exact absurd h (by decide)
  · exact pause?_zero h

/-- Where no reply but the first is lost, the second attempt is the last one. -/
theorem last_eq_one {last : Nat}
    (h : (client Desk.samplePullRequest).IsLast losesOne.answers 0 2 last) : last = 1 := by
  have hne : last ≠ 0 := by
    rintro rfl
    rcases h.ended with hdone | hleft | hwait
    · exact absurd hdone (by decide)
    · exact absurd hleft (by decide)
    · exact pause?_zero hwait
  by_contra hlast
  exact h.lost 1 (by omega) rfl

/-- **One lost reply is enough for a second comment**: with three attempts, of which the first is
lost, one upsert without a marked comment adds two. -/
theorem one_lost_reply_adds_two :
    (comments losesOne).any (isMarked "<!-- m -->") = false ∧
      (client Desk.samplePullRequest).maxAttempts = 3 ∧
      (comments (((client Desk.samplePullRequest).upsert Desk.samplePullRequest "<!-- m -->"
        "hi").run.run ⟨losesOne, [], [], []⟩).2.transport).length =
          (comments losesOne).length + 2 := by
  have hnone : (comments losesOne).any (isMarked "<!-- m -->") = false := by decide
  obtain ⟨last, added, hlast, hafter, hlength, -⟩ :=
    (lossy Desk.samplePullRequest).upsert_run (by decide) "hi" ⟨losesOne, [], [], []⟩ hnone
  rw [last_eq_one hlast] at hlength
  refine ⟨hnone, rfl, ?_⟩
  rw [hafter, List.length_append, hlength]

end LossyDesk

end LintReport.GitHub
