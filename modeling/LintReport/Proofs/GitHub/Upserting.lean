import LintReport.Proofs.GitHub.Backoff
import LintReport.Proofs.GitHub.Listing
import LintReport.Proofs.GitHub.Scheme

/-!
# One Write after a Listing

An upsert reads pages of comments until it knows which comment to change, or that there is none, and
then writes once. Whatever the transport does, a page that could not be read ends it before the
write, so that nothing is written on account of a listing that failed.

A page counts as not read as well where the reader has no room for it. The fault of such an upsert
comes without a status, so it is not told from other faults of a program.

## Main definitions

* `Client.Upserts`: the exchanges of an upsert, and its result.
* `Client.WritesOnce`: what the pages, the write and the result have to do with each other.

## Main results

* `Client.upsert_upserts`: **an upsert is a listing and a write**, for every transport.
* `Client.Upserts.sends`: all that it sends are questions, and attempts of the write.
* `Client.upsert_writesOnce`: what is sent by an upsert and what it returns.
* `deepReply_ends_upsert`: a reply without room ends an upsert without a status.
-/

namespace LintReport.GitHub

variable {σ : Type}

/-! ### The search -/

/-- Among objects, the search for a marked comment is a search for its number. -/
theorem findIn_of_isObject (marker : String) {comments : List Json}
    (h : ∀ comment ∈ comments, isObject comment = true) :
    findIn marker comments = .ok (comments.findSome? (markedId? marker)) := by
  induction comments with
  | nil => rfl
  | cons comment rest ih =>
    rw [List.forall_mem_cons] at h
    rw [findIn, if_pos h.1, List.findSome?_cons]
    cases markedId? marker comment with
    | none => exact ih h.2
    | some id => rfl

/-- The comments of a page are objects. -/
theorem isObject_of_mem_comments {e : Exchange} {comment : Json} (h : comment ∈ e.comments) :
    isObject comment = true := by
  cases hvalue : e.value? with
  | none =>
    rw [Exchange.comments, hvalue] at h
    cases h
  | some v =>
    rw [Exchange.comments_eq hvalue] at h
    cases v with
    | arr entries => exact (List.mem_filter.1 h).2
    | _ => cases h

/-- The number of the first comment on some pages that carries a marker. -/
def firstMarked (marker : String) (pages : List Exchange) : Option Int :=
  (pages.flatMap Exchange.comments).findSome? (markedId? marker)

/-- The search in what was listed finds the first marked comment on the pages. -/
theorem findIn_flatMap_comments (marker : String) (pages : List Exchange) :
    findIn marker (pages.flatMap Exchange.comments) = .ok (firstMarked marker pages) := by
  refine findIn_of_isObject marker fun comment hcomment => ?_
  obtain ⟨e, -, he⟩ := List.mem_flatMap.1 hcomment
  exact isObject_of_mem_comments he

/-! ### The content of a write -/

/-- Whether the octets of a request hold a value. -/
def Request.Holds (request : Request) (v : Json) : Prop :=
  ∃ octets text, request.body.map Text.Utf8.encode = some octets ∧
    Text.Utf8.decode? octets = some text ∧ Json.parse text = .ok v

/-- The content of a write is what is read from its octets. -/
theorem Request.holds_content {request : Request} {body : String}
    (h : request.body = (some (Client.content body)).map Json.compact) :
    request.Holds (Client.content body) := by
  refine ⟨_, _, ?_, Text.Utf8.decode?_encode _,
    Json.parse_compact (Client.readable_content body) (Client.fits_content body)⟩
  rw [h, Option.map_some, Option.map_some]

/-- Whether a request changes or posts a comment. -/
def Request.IsWrite (request : Request) : Prop := request.method = "PATCH" ∨ request.method = "POST"

namespace Client

variable {client : Client σ} {pr : PullRequest} {marker body : String}

/-! ### The exchanges of an upsert -/

/-- The number of a comment that was created, if the code host gave one. -/
def createdId? (v : Json) : Option Json :=
  match v.field? "id" with
  | some (.int i) => some (.int i)
  | some (.bool b) => some (.bool b)
  | _ => none

/-- The exchanges of an upsert, pages and then a write, and its result. -/
inductive Upserts (client : Client σ) (pr : PullRequest) (marker body : String) :
    List Exchange → List Exchange → Except ApiFault Upserted → Prop
  /-- A page could not be read. -/
  | unlisted {pages : List Exchange} {fault : ApiFault} :
    client.Lists pr { stopAt := some marker } 20 1 pages (.error fault) →
    Upserts client pr marker body pages [] (.error fault)
  /-- A marked comment is changed. -/
  | updated {pages write : List Exchange} {comments : List Json} {id : Int}
    {result : Except ApiFault Json} :
    client.Lists pr { stopAt := some marker } 20 1 pages (.ok comments) →
    firstMarked marker pages = some id →
    client.Requested "PATCH" (pr.commentPath id) (some (content body)) write result →
    Upserts client pr marker body pages write (result.map fun _ => .updated id)
  /-- A comment is posted. -/
  | created {pages write : List Exchange} {comments : List Json} {result : Except ApiFault Json} :
    client.Lists pr { stopAt := some marker } 20 1 pages (.ok comments) →
    firstMarked marker pages = none →
    client.Requested "POST" pr.commentsPath (some (content body)) write result →
    Upserts client pr marker body pages write (result.map fun v => .created (createdId? v))

/-- The write of an upsert is a write, and holds the body. -/
theorem Upserts.of_mem_write {pages write : List Exchange} {result : Except ApiFault Upserted}
    (h : client.Upserts pr marker body pages write result) :
    ∀ e ∈ write, e.request.IsWrite ∧ e.request.Holds (content body) := by
  intro e he
  cases h with
  | unlisted => cases he
  | updated _ _ hrequested =>
    obtain ⟨hasks, hbody, -⟩ := hrequested.asks e he
    exact ⟨.inl hasks.1, Request.holds_content hbody⟩
  | created _ _ hrequested =>
    obtain ⟨hasks, hbody, -⟩ := hrequested.asks e he
    exact ⟨.inr hasks.1, Request.holds_content hbody⟩

/-- The pages of an upsert are those of a listing. -/
theorem Upserts.exists_lists {pages write : List Exchange} {result : Except ApiFault Upserted}
    (h : client.Upserts pr marker body pages write result) :
    ∃ listed, client.Lists pr { stopAt := some marker } 20 1 pages listed := by
  cases h with
  | unlisted hlists => exact ⟨_, hlists⟩
  | updated hlists => exact ⟨_, hlists⟩
  | created hlists => exact ⟨_, hlists⟩

/-- **All that an upsert sends** are questions, and attempts of a write that holds the body. -/
theorem Upserts.sends {pages write : List Exchange} {result : Except ApiFault Upserted}
    (h : client.Upserts pr marker body pages write result) :
    ∀ request ∈ ((pages ++ write).flatMap Exchange.attempts).map Prod.fst,
      request.method = "GET" ∨ request.IsWrite ∧ request.Holds (content body) := by
  intro request hrequest
  rw [List.flatMap_append, List.map_append, List.mem_append] at hrequest
  rcases hrequest with hpage | hwrite
  · obtain ⟨listed, hlists⟩ := h.exists_lists
    exact .inl (hlists.method_eq request hpage)
  · obtain ⟨e, he, rfl⟩ := Exchange.mem_requests_iff.1 hwrite
    exact .inr (h.of_mem_write e he)

/-- An upsert that succeeds has written. -/
theorem Upserts.exists_write {pages write : List Exchange} {outcome : Upserted}
    (h : client.Upserts pr marker body pages write (.ok outcome)) : ∃ e, e ∈ write := by
  have hsome {method path : String} {sent : Option Json} {answer : Except ApiFault Json}
      {done : Json → Upserted} (hrequested : client.Requested method path sent write answer)
      (hok : answer.map done = .ok outcome) : ∃ e, e ∈ write := by
    cases answer with
    | error fault => cases hok
    | ok v =>
      obtain ⟨e, rfl, -⟩ := hrequested.exists_of_ok
      exact ⟨e, List.mem_cons_self⟩
  generalize hresult : Except.ok outcome = result at h
  cases h with
  | unlisted => cases hresult
  | updated _ _ hrequested => exact hsome hrequested hresult.symm
  | created _ _ hrequested => exact hsome hrequested hresult.symm

/-- Where a listing fails, so does the upsert. -/
theorem upsert_of_error {s s' : Conversation σ} {fault : ApiFault}
    (hlist : (client.listComments pr { stopAt := some marker }).run.run s = (.error fault, s')) :
    (client.upsert pr marker body).run.run s = (.error fault, s') := by
  have hlisting : (Json.arr <$> client.listComments pr { stopAt := some marker }).run.run s =
      (.error fault, s') := by
    rw [map_eq_pure_bind, run_bind_error hlist]
  rw [upsert, run_bind_error hlisting]

/-- **An upsert is a listing and a write**, whatever the transport does. -/
theorem upsert_upserts (client : Client σ) (pr : PullRequest) (marker body : String)
    (s : Conversation σ) :
    ∃ (pages write : List Exchange) (result : Except ApiFault Upserted) (s' : Conversation σ),
      client.Upserts pr marker body pages write result ∧
      (client.upsert pr marker body).run.run s = (result, s') ∧
      client.Logs ((pages ++ write).flatMap Exchange.attempts) s s' := by
  obtain ⟨pages, listed, s', hlists, hrun, hlogs⟩ :=
    client.listFrom_lists pr { stopAt := some marker } 20 1 [] s
  have hlist : (client.listComments pr { stopAt := some marker }).run.run s =
      (listed.map ([] ++ ·), s') := hrun
  cases listed with
  | error fault =>
    refine ⟨pages, [], _, s', .unlisted hlists, upsert_of_error hlist, ?_⟩
    rw [List.append_nil]
    exact hlogs
  | ok comments =>
    have hfind : findIn marker comments = .ok (firstMarked marker pages) := by
      rw [hlists.eq_flatMap_comments, findIn_flatMap_comments]
    have hboth {write : List Exchange} {s'' : Conversation σ}
        (hmore : client.Logs (write.flatMap Exchange.attempts) s' s'') :
        client.Logs ((pages ++ write).flatMap Exchange.attempts) s s'' := by
      rw [List.flatMap_append]
      exact hlogs.trans hmore
    cases hfirst : firstMarked marker pages with
    | some id =>
      obtain ⟨write, result, s'', hrequested, hwrite, hmore⟩ := client.request_run
        "PATCH" (by decide) (pr.commentPath id) (some (content body)) s'
      refine ⟨pages, write, _, s'', .updated hlists hfirst hrequested, ?_, hboth hmore⟩
      rw [hfirst] at hfind
      rw [upsert_of_some hlist hfind]
      cases result with
      | error fault => exact run_bind_error hwrite
      | ok v =>
        rw [run_bind_ok hwrite]
        rfl
    | none =>
      obtain ⟨write, result, s'', hrequested, hwrite, hmore⟩ := client.request_run
        "POST" (by decide) pr.commentsPath (some (content body)) s'
      refine ⟨pages, write, _, s'', .created hlists hfirst hrequested, ?_, hboth hmore⟩
      rw [hfirst] at hfind
      rw [upsert_of_none hlist hfind]
      cases result with
      | error fault => exact run_bind_error hwrite
      | ok v =>
        rw [run_bind_ok hwrite, Except.map, createdId?]
        cases v.field? "id" with
        | none => rfl
        | some id => cases id <;> rfl

/-! ### What is sent and what is returned -/

/-- What the pages that an upsert asks for, its write and its result have to do with each other. -/
structure WritesOnce (client : Client σ) (pr : PullRequest) (marker body : String)
    (pages write : List Exchange) (result : Except ApiFault Upserted) : Prop where
  /-- At least one page is asked for, and at most twenty. -/
  pages_pos : 1 ≤ pages.length
  pages_le : pages.length ≤ 20
  /-- The pages are asked for in order. -/
  pages_asked : ∀ (i : Nat) (e : Exchange), pages[i]? = some e →
    client.Asks "GET" (pagePath pr 100 (1 + i)) e.request ∧ e.request.body = none
  write_le : write.length ≤ 1
  /-- There is a write exactly when all pages were read. -/
  write_iff : write ≠ [] ↔ ∀ e ∈ pages, e.IsDone
  /-- The write changes the first marked comment, or posts one where none is marked. -/
  write_asked : ∀ e ∈ write,
    match firstMarked marker pages with
    | some id => client.Asks "PATCH" (pr.commentPath id) e.request
    | none => client.Asks "POST" pr.commentsPath e.request
  write_holds : ∀ e ∈ write, e.request.Holds (.obj [("body", .str body)])
  /-- Each request is sent as often as it may be, at most. -/
  attempts_le : ∀ e ∈ pages ++ write, (e.attempts.length : Int) ≤ client.maxAttempts
  /-- The comment was changed, or one was posted, exactly when the write was done. -/
  updated_iff : ∀ id, result = .ok (.updated id) ↔
    firstMarked marker pages = some id ∧ ∃ e ∈ write, e.IsDone
  created_iff : (∃ id?, result = .ok (.created id?)) ↔
    firstMarked marker pages = none ∧ ∃ e ∈ write, e.IsDone
  /-- Otherwise the upsert fails with a fault of the code host, which has a status, or at a limit of
  the reader, which has none. -/
  failed : ∀ fault, result = .error fault →
    (∃ status, fault.status? = some status) ∨ ∃ limit, fault = .unreadable limit
  /-- It fails at a limit exactly when the last reply to one of its requests is beyond it. -/
  unreadable_iff : ∀ limit, result = .error (.unreadable limit) ↔
    ∃ e ∈ pages ++ write, e.EndsBeyond limit

/-- An upsert succeeds exactly when its write was done. -/
theorem WritesOnce.ok_iff {pages write : List Exchange} {result : Except ApiFault Upserted}
    (h : client.WritesOnce pr marker body pages write result) :
    (∃ outcome, result = .ok outcome) ↔ ∃ e ∈ write, e.IsDone := by
  constructor
  · rintro ⟨outcome, hresult⟩
    cases outcome with
    | updated id => exact ((h.updated_iff id).1 hresult).2
    | created id? => exact (h.created_iff.1 ⟨id?, hresult⟩).2
  · intro hdone
    cases hfirst : firstMarked marker pages with
    | some id => exact ⟨_, (h.updated_iff id).2 ⟨hfirst, hdone⟩⟩
    | none =>
      obtain ⟨id?, hresult⟩ := h.created_iff.2 ⟨hfirst, hdone⟩
      exact ⟨_, hresult⟩

/-- The attempts of an exchange are those at which the code host was unavailable, and one more. -/
theorem length_attempts_le {e : Exchange} (h : (e.lost.length : Int) < client.maxAttempts) :
    (e.attempts.length : Int) ≤ client.maxAttempts := by
  rw [Exchange.attempts, List.length_append, List.length_map, List.length_singleton]
  omega

/-- A page is sent as often as it may be, at most. -/
theorem Lists.attempts_le {paging : Paging} {left : Nat} {page : Int} {es : List Exchange}
    {listed : Except ApiFault (List Json)} (h : client.Lists pr paging left page es listed) :
    ∀ e ∈ es, (e.attempts.length : Int) ≤ client.maxAttempts := by
  intro e he
  obtain ⟨i, hi⟩ := List.getElem?_of_mem he
  exact length_attempts_le (h.asks i hi).2.2

section Sendable

variable (hscheme : (Request.normalizeUrl? client.apiUrl).isSome = true)
  (hmin : 1 ≤ client.maxAttempts)
  (hpause : ∀ n : Nat, (n : Int) < client.maxAttempts → (client.pause? n).isSome = true)

include hmin hpause

/-- Where all pages were read, the request after them is the write. -/
theorem WritesOnce.of_ok {pages write : List Exchange} {comments : List Json} {method path : String}
    {outcome : Except ApiFault Json} {done : Json → Upserted}
    (hlists : client.Lists pr { stopAt := some marker } 20 1 pages (.ok comments))
    (hrequested : client.Requested method path (some (content body)) write outcome)
    (haddress : (client.address? path).isSome = true)
    (hasked : ∀ e ∈ write,
      match firstMarked marker pages with
      | some id => client.Asks "PATCH" (pr.commentPath id) e.request
      | none => client.Asks "POST" pr.commentsPath e.request)
    (hupdated : ∀ v id, done v = .updated id ↔ firstMarked marker pages = some id)
    (hcreated : ∀ v, (∃ id?, done v = .created id?) ↔ firstMarked marker pages = none) :
    client.WritesOnce pr marker body pages write (outcome.map done) := by
  obtain ⟨w, rfl, hdone⟩ := hrequested.exists_exchange haddress hmin
  obtain ⟨-, hbody, hlost⟩ := hrequested.asks w List.mem_cons_self
  simp only [List.forall_mem_singleton] at hasked
  exact {
    pages_pos := hlists.length_pos
    pages_le := hlists.length_le
    pages_asked := fun i e he => ⟨(hlists.asks i he).1, (hlists.asks i he).2.1⟩
    write_le := Nat.le_refl 1
    write_iff := iff_of_true (List.cons_ne_nil w []) hlists.isDone_of_ok
    write_asked := List.forall_mem_singleton.2 hasked
    write_holds := List.forall_mem_singleton.2 (Request.holds_content hbody)
    attempts_le := List.forall_mem_append.2
      ⟨hlists.attempts_le, List.forall_mem_singleton.2 (length_attempts_le hlost)⟩
    updated_iff := fun id => by
      simp only [List.mem_singleton, exists_eq_left, hdone]
      cases outcome with
      | error fault => simp [Except.map]
      | ok v => simp [Except.map, hupdated]
    created_iff := by
      simp only [List.mem_singleton, exists_eq_left, hdone]
      cases outcome with
      | error fault => simp [Except.map]
      | ok v => simp [Except.map, hcreated]
    failed := fun fault h => by
      cases outcome with
      | error fault' =>
        cases h
        exact hrequested.status?_of_error haddress hmin hpause
      | ok v => cases h
    unreadable_iff := fun limit => by
      have hpages : ¬ ∃ e ∈ pages, e.EndsBeyond limit := by
        rintro ⟨e, he, hbeyond⟩
        exact hbeyond.not_isDone (hlists.isDone_of_ok e he)
      have hwrite := hrequested.eq_unreadable_iff limit
      simp only [List.mem_append, or_and_right, exists_or, hpages, false_or, ← hwrite]
      cases outcome <;> simp [Except.map] }

include hscheme

/-- Where a page could not be read, nothing is written. -/
theorem WritesOnce.of_error {pages : List Exchange} {fault : ApiFault}
    (hlists : client.Lists pr { stopAt := some marker } 20 1 pages (.error fault)) :
    client.WritesOnce pr marker body pages [] (.error fault) := by
  obtain ⟨read, failed, n, rfl, hread, hrequested⟩ := hlists.of_error
  have haddress := pagePath_address hscheme pr 100 n
  obtain ⟨e, rfl, hdone⟩ := hrequested.exists_exchange haddress hmin
  have hnotDone : ¬ ∀ e' ∈ read ++ [e], e'.IsDone := by
    intro hall
    obtain ⟨v, hv⟩ := hdone.1 (hall e (List.mem_append_right _ List.mem_cons_self))
    cases hv
  exact {
    pages_pos := by
      rw [List.length_append, List.length_singleton]
      omega
    pages_le := hlists.length_le
    pages_asked := fun i e he => ⟨(hlists.asks i he).1, (hlists.asks i he).2.1⟩
    write_le := Nat.zero_le 1
    write_iff := iff_of_false (fun h => h rfl) hnotDone
    write_asked := List.forall_mem_nil _
    write_holds := List.forall_mem_nil _
    attempts_le := by
      rw [List.append_nil]
      exact hlists.attempts_le
    updated_iff := by simp
    created_iff := by simp
    failed := fun fault' h => by
      cases h
      exact hrequested.status?_of_error haddress hmin hpause
    unreadable_iff := fun limit => by
      have hfull : ¬ ∃ e ∈ read, e.EndsBeyond limit := by
        rintro ⟨e, he, hbeyond⟩
        obtain ⟨v, hvalue, -⟩ := hread e he
        exact hbeyond.not_isDone (Exchange.isDone_iff.2 ⟨v, hvalue⟩)
      have hfailed := hrequested.eq_unreadable_iff limit
      rw [List.append_nil]
      simp only [List.mem_append, or_and_right, exists_or, hfull, false_or, ← hfailed,
        Except.error.injEq] }

end Sendable

/-- **What is sent by an upsert and what it returns.** Whatever a transport does, a client whose
code host has a scheme, with the usual delay and at most a thousand attempts, asks for the pages of
comments in order, writes at most once and only after pages that were all read, changes the first
marked comment or else posts one, and returns what it did exactly when the write was done. It fails
with a fault of the code host otherwise, unless the reader has no room for a reply. -/
theorem upsert_writesOnce (client : Client σ)
    (hscheme : (Request.normalizeUrl? client.apiUrl).isSome = true)
    (hdelay : client.baseDelay = .float (.ofRatio false 1 1)) {jitter : Binary64}
    (hjitter : client.jitter = .float jitter) (hmin : 1 ≤ client.maxAttempts)
    (hmax : client.maxAttempts ≤ 1000) (pr : PullRequest) (marker body : String)
    (s : Conversation σ) :
    ∃ (pages write : List Exchange) (result : Except ApiFault Upserted) (s' : Conversation σ),
      (client.upsert pr marker body).run.run s = (result, s') ∧
      client.Logs ((pages ++ write).flatMap Exchange.attempts) s s' ∧
      client.WritesOnce pr marker body pages write result := by
  have hpause (n : Nat) (hn : (n : Int) < client.maxAttempts) :
      (client.pause? n).isSome = true := pause?_isSome hdelay hjitter (by omega)
  obtain ⟨pages, write, result, s', hupserts, hrun, hlogs⟩ := client.upsert_upserts pr marker body s
  refine ⟨pages, write, result, s', hrun, hlogs, ?_⟩
  cases hupserts with
  | unlisted hlists => exact .of_error hscheme hmin hpause hlists
  | updated hlists hfirst hrequested =>
    refine .of_ok hmin hpause hlists hrequested (commentPath_address hscheme pr _) ?_ ?_ ?_
    · rw [hfirst]
      exact fun e he => (hrequested.asks e he).1
    · simp [hfirst]
    · simp [hfirst]
  | created hlists hfirst hrequested =>
    refine .of_ok hmin hpause hlists hrequested (commentsPath_address hscheme pr) ?_ ?_ ?_
    · rw [hfirst]
      exact fun e he => (hrequested.asks e he).1
    · simp [hfirst]
    · simp [hfirst]

end Client

/-! ### Replies from a script -/

/-- A transport that gives one reply after the other, and breaks down behind the last one. -/
def carryScript : Transport (List Reply) := fun _ replies =>
  match replies with
  | [] => (.error "no reply is left", [])
  | reply :: rest => (.ok reply, rest)

/-- A client that gets scripted replies. -/
def scripted : Client (List Reply) where
  carry := carryScript
  token := "t"

/-- The pull request that scripted replies are about. -/
def scriptedPullRequest : PullRequest := ⟨some "owner/repo", some 1⟩

/-- A page with two marked comments, of which the first one has no usable number, an unavailable
code host, and a write that was done. -/
def markedReplies : List Reply :=
  [⟨200, Text.Utf8.encode ("[\x7b\"id\": true, \"body\": \"m\"\x7d, " ++
    "\x7b\"id\": 7, \"body\": \"m\"\x7d]")⟩, ⟨502, []⟩, ⟨200, [123, 125]⟩]

/-- The number of the comment that was changed, if one was. -/
def Upserted.changed? : Upserted → Option Int
  | updated id => some id
  | created _ => none

/-- The marked comment that has a number is changed after a listing that was done, in one write of
two attempts. -/
theorem markedReplies_write_once :
    ∃ (pages write : List Exchange) (s' : Conversation (List Reply)),
      (scripted.upsert scriptedPullRequest "m" "b").run.run { transport := markedReplies } =
        (.ok (.updated 7), s') ∧
      scripted.Logs ((pages ++ write).flatMap Exchange.attempts) { transport := markedReplies } s' ∧
      s'.sent.map (·.method) = ["GET", "PATCH", "PATCH"] ∧
      firstMarked "m" pages = some 7 ∧ (∀ e ∈ pages, e.IsDone) ∧ ∃ e ∈ write, e.IsDone := by
  obtain ⟨pages, write, result, s', hrun, hlogs, hwrites⟩ :=
    scripted.upsert_writesOnce (by decide +kernel) rfl rfl (by decide) (by decide)
      scriptedPullRequest "m" "b" { transport := markedReplies }
  have hsent : ((scripted.upsert scriptedPullRequest "m" "b").run.run
      { transport := markedReplies }).2.sent.map (·.method) = ["GET", "PATCH", "PATCH"] := by
    decide +kernel
  have hchanged : ((scripted.upsert scriptedPullRequest "m" "b").run.run
      { transport := markedReplies }).1.toOption.bind Upserted.changed? = some 7 := by
    decide +kernel
  rw [hrun] at hsent hchanged
  obtain rfl : result = .ok (.updated 7) := by
    cases result with
    | error fault => cases hchanged
    | ok upserted =>
      cases upserted with
      | updated id => rw [Option.some.inj hchanged]
      | created id? => cases hchanged
  obtain ⟨hfirst, e, he, hdone⟩ := (hwrites.updated_iff 7).1 rfl
  have hpages := hwrites.write_iff.1 (List.ne_nil_of_mem he)
  exact ⟨pages, write, s', hrun, hlogs, hsent, hfirst, hpages, e, he, hdone⟩

/-- **A reply without room ends an upsert without a status**, though it says that the request was
done: nothing is written, and the fault is none of the code host. -/
theorem deepReply_ends_upsert :
    deepReply.isDone = true ∧
      ((scripted.upsert scriptedPullRequest "m" "b").run.run { transport := [deepReply] }).1 =
        .error (.unreadable .nesting) ∧
      ((scripted.upsert scriptedPullRequest "m" "b").run.run
        { transport := [deepReply] }).2.sent.map (·.method) = ["GET"] ∧
      (ApiFault.unreadable .nesting).status? = none := by
  obtain ⟨url, hurl⟩ := Option.isSome_iff_exists.1
    (@Client.pagePath_address _ scripted (by decide +kernel) scriptedPullRequest 100 1)
  have hpage : (scripted.request "GET" (Client.pagePath scriptedPullRequest 100 1)).run.run
      { transport := [deepReply] } = (.error (.unreadable .nesting),
        Client.afterSend { transport := [deepReply] } (scripted.requestTo "GET" url none) []) :=
    Client.attempts_unreadable (Client.build?_eq hurl "GET" none) rfl value_deepReply 2 0
  have hlist : (scripted.listComments scriptedPullRequest { stopAt := some "m" }).run.run
      { transport := [deepReply] } = (.error (.unreadable .nesting),
        Client.afterSend { transport := [deepReply] } (scripted.requestTo "GET" url none) []) := by
    change (scripted.listFrom scriptedPullRequest { stopAt := some "m" } 20 1 []).run.run _ = _
    rw [Client.listFrom_succ]
    exact run_bind_error hpage
  rw [Client.upsert_of_error hlist]
  exact ⟨rfl, rfl, rfl, rfl⟩

end LintReport.GitHub
