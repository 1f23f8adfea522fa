import LintReport.Proofs.GitHub.Talk

/-!
# A Faithful Comment Service

What the client relies on when it talks to a code host that does as it is asked: comments have
distinct numbers, a page is a slice of their list, a changed comment has the body it was given, and
a posted one is added at the end under a new number. The laws of `Faithful` are stated about the
requests as they are sent, so that the text of a body is followed through its JSON.

## Main results

* `findIn_of_shows`: the search in a listing finds the first marked comment of the list it shows.
* `Legible.listFrom_run`: **a listing shows the first comments**, page after page.
* `Legible.find_run`: the first marked comment of at most 2000 is found.
* `Faithful.patch_run`, `Faithful.post_run`: what the two writes do to the list.
-/

namespace LintReport.GitHub

/-! ### Comments -/

/-- A comment that a service holds. -/
structure StoredComment where
  id : Int
  body : String
deriving DecidableEq, Repr

namespace StoredComment

/-- Whether a comment carries a marker. -/
def isMarked (marker : String) (c : StoredComment) : Bool := Text.contains marker c.body

/-- Whether a value shows a comment: its number and its body, with any other members. -/
def Shows (c : StoredComment) (v : Json) : Prop :=
  v.field? "id" = some (.int c.id) ∧ v.field? "body" = some (.str c.body)

/-- The comments after one of them has got a new body. -/
def setBody (id : Int) (body : String) (comments : List StoredComment) : List StoredComment :=
  comments.map fun c => if c.id = id then { c with body := body } else c

end StoredComment

open StoredComment

/-! ### Listings -/

section Listings

variable {marker : String} {c : StoredComment} {v : Json}

/-- A value that shows a comment is an object. -/
theorem isObject_of_shows (h : c.Shows v) : isObject v = true := by
  cases v with
  | obj members => rfl
  | _ => cases h.1

/-- The text of the body of a comment is that body. -/
theorem bodyText_of_shows (h : c.Shows v) : bodyText v = c.body := by
  rw [bodyText, h.2]
  dsimp only
  split
  · next hempty =>
    rw [Json.isFalsy, String.isEmpty_iff] at hempty
    exact hempty.symm
  · rfl

/-- A marked comment is known by its number. -/
theorem markedId?_of_shows (h : c.Shows v) :
    markedId? marker v = if c.isMarked marker then some c.id else none := by
  rw [markedId?, bodyText_of_shows h, h.1]
  rfl

/-- **The search in a listing finds the first marked comment** of the list it shows. -/
theorem findIn_of_shows {comments : List StoredComment} {listing : List Json}
    (h : List.Forall₂ Shows comments listing) :
    findIn marker listing = .ok ((comments.find? (isMarked marker)).map (·.id)) := by
  induction h with
  | nil => rfl
  | @cons c v comments listing hc _ ih =>
    rw [findIn, if_pos (isObject_of_shows hc), markedId?_of_shows hc, List.find?_cons]
    cases hmarked : c.isMarked marker with
    | true => rfl
    | false => exact ih

/-- A listing is long enough when it shows the whole list, or a part with a marked comment. -/
theorem findIn_of_shows_take {comments : List StoredComment} {n : Nat} {listing : List Json}
    (h : List.Forall₂ Shows (comments.take n) listing)
    (hend : comments.length ≤ n ∨ (comments.take n).any (isMarked marker) = true) :
    findIn marker listing = .ok ((comments.find? (isMarked marker)).map (·.id)) := by
  rw [findIn_of_shows h]
  rcases hend with hlength | hmarked
  · rw [List.take_of_length_le hlength]
  · obtain ⟨c, hc⟩ : ∃ c, (comments.take n).find? (isMarked marker) = some c := by
      rw [← Option.isSome_iff_exists, List.find?_isSome]
      simpa using hmarked
    have hfirst : comments.find? (isMarked marker) = some c := by
      rw [← List.take_append_drop n comments, List.find?_append, hc]
      rfl
    rw [hc, hfirst]

/-- The check for a marked comment on a page looks at the list that the page shows. -/
theorem findSome?_of_shows (marker : String) {comments : List StoredComment} {listing : List Json}
    (h : List.Forall₂ Shows comments listing) :
    (listing.findSome? (markedId? marker)).isSome = comments.any (isMarked marker) := by
  induction h with
  | nil => rfl
  | @cons c v comments listing hc _ ih =>
    rw [List.findSome?_cons, markedId?_of_shows hc, List.any_cons]
    cases hmarked : c.isMarked marker with
    | true => rfl
    | false => exact ih

/-- Everything on a page of comments is an object. -/
theorem filter_isObject_of_shows {comments : List StoredComment} {listing : List Json}
    (h : List.Forall₂ Shows comments listing) : listing.filter isObject = listing := by
  rw [List.filter_eq_self]
  intro v hv
  induction h with
  | nil => cases hv
  | cons hc _ ih =>
    rcases List.mem_cons.1 hv with rfl | hv
    · exact isObject_of_shows hc
    · exact ih hv

end Listings

/-! ### The laws of a service -/

/-- The body of a comment in the content of a request. -/
def Request.Carries (request : Request) (body : String) : Prop :=
  ∃ text content, request.body = some text ∧ Json.parse text = .ok content ∧
    content.field? "body" = some (.str body)

variable {σ : Type}

/-- Whether a request asks for a path of a code host with a method. -/
def Client.Asks (client : Client σ) (method path : String) (request : Request) : Prop :=
  request.method = method ∧ client.address? path = some request.url

/-- Whether a service answers a request with a value and goes over to a state. -/
def Client.Answers (client : Client σ) (request : Request) (before : σ) (v : Json) (after : σ) :
    Prop :=
  ∃ reply, client.carry request before = (.ok reply, after) ∧ reply.isDone = true ∧
    reply.value = .ok v

/-- **A service whose comments can be listed.** `comments` is the list that a state of the service
holds, and `kept` is anything else in a state that reading leaves as it is. -/
structure Legible {α : Type} (client : Client σ) (pr : PullRequest)
    (comments : σ → List StoredComment) (kept : σ → α) : Prop where
  /-- Every path of the code host has an address. -/
  reachable : ∀ path, (client.address? path).isSome = true
  /-- A page is a slice of the list. -/
  lists : ∀ (s : σ) (request : Request) (perPage page : Nat), 1 ≤ perPage → 1 ≤ page →
    client.Asks "GET" (Client.pagePath pr perPage page) request →
    ∃ entries s', client.Answers request s (.arr entries) s' ∧
      comments s' = comments s ∧ kept s' = kept s ∧
      List.Forall₂ Shows (((comments s).drop ((page - 1) * perPage)).take perPage) entries

/-- **A faithful comment service** lists its comments and does the writes it is asked for. It need
not take any number of comments: those that fill the pages of a listing are enough. -/
structure Faithful (client : Client σ) (pr : PullRequest) (comments : σ → List StoredComment) :
    Prop extends Legible client pr comments comments where
  /-- Comments have distinct numbers. -/
  distinct : ∀ s, ((comments s).map (·.id)).Nodup
  /-- A comment that is changed has the body it was given. -/
  edits : ∀ (s : σ) (request : Request) (id : Int) (body : String),
    client.Asks "PATCH" (pr.commentPath id) request → request.Carries body →
    id ∈ (comments s).map (·.id) →
    ∃ v s', client.Answers request s v s' ∧ comments s' = setBody id body (comments s)
  /-- A comment that is posted is added at the end, under a new number. -/
  creates : ∀ (s : σ) (request : Request) (body : String), (comments s).length ≤ 2000 →
    client.Asks "POST" pr.commentsPath request → request.Carries body →
    ∃ id v s', client.Answers request s v s' ∧ StoredComment.Shows ⟨id, body⟩ v ∧
      comments s' = comments s ++ [⟨id, body⟩]

/-! ### The requests of a client -/

section Requests

variable {client : Client σ} {pr : PullRequest} {comments : σ → List StoredComment}

/-- Every path of a service that can be reached is asked for by some request, and where that is
answered, the client has its value after the first attempt. -/
theorem Client.exists_request (hattempts : 1 ≤ client.maxAttempts)
    (hreach : ∀ path, (client.address? path).isSome = true) (method : String)
    (hmethod : method.isEmpty = false) (path : String) (content : Option Json) :
    ∃ request : Request, client.Asks method path request ∧
      request.body = content.map Json.compact ∧
      ∀ (s : Conversation σ) (v : Json) (t : σ), client.Answers request s.transport v t →
        ∃ s', (client.request method path content).run.run s = (.ok v, s') ∧
          s'.transport = t := by
  obtain ⟨url, hurl⟩ := Option.isSome_iff_exists.1 (hreach path)
  refine ⟨client.requestTo method url content, ⟨?_, hurl⟩, rfl, ?_⟩
  · rw [requestTo, methodOr, hmethod]
    rfl
  · rintro s v t ⟨reply, hcarry, hdone, hvalue⟩
    exact ⟨_, request_done hattempts (build?_eq hurl method content) hcarry hvalue hdone, rfl⟩

/-- The content of a write. -/
def Client.content (body : String) : Json := .obj [("body", .str body)]

/-- The content of a write reads back. -/
theorem Client.readable_content (body : String) : Json.Readable (Client.content body) := by
  simp [content, Json.Readable, Json.ReadableMembers]

/-- There is room for the content of a write. -/
theorem Client.fits_content (body : String) : Json.Fits Json.depthLimit (Client.content body) := by
  simp [content, Json.Fits, Json.FitsMembers, Json.depthLimit]

/-- A write carries the body that is written. -/
theorem Request.carries_content {request : Request} {body : String}
    (h : request.body = (some (Client.content body)).map Json.compact) : request.Carries body :=
  ⟨_, _, h, Json.parse_compact (Client.readable_content body) (Client.fits_content body), rfl⟩

/-- An empty page ends a listing. -/
theorem Client.listFrom_empty (paging : Paging) {s s' : Conversation σ} {page : Int}
    (hrun : (client.request "GET" (pagePath pr paging.perPage page)).run.run s =
      (.ok (.arr []), s')) (left : Nat) (done : List Json) :
    (client.listFrom pr paging (left + 1) page done).run.run s = (.ok done, s') := by
  rw [listFrom, run_bind_ok hrun]
  rfl

/-- A page with entries ends a listing if it is not full or shows a marked comment. -/
theorem Client.listFrom_page (paging : Paging) {s s' : Conversation σ} {page : Int} {entry : Json}
    {more : List Json}
    (hrun : (client.request "GET" (pagePath pr paging.perPage page)).run.run s =
      (.ok (.arr (entry :: more)), s')) (left : Nat) (done : List Json) :
    (client.listFrom pr paging (left + 1) page done).run.run s =
      (if (paging.stopAt.any fun marker =>
            (((entry :: more).filter isObject).findSome? (markedId? marker)).isSome) ||
          decide (((entry :: more).length : Int) < paging.perPage) then
        pure (done ++ (entry :: more).filter isObject)
      else
        client.listFrom pr paging left (page + 1) (done ++ (entry :: more).filter isObject) :
          Talk σ (List Json)).run.run s' := by
  rw [listFrom, run_bind_ok hrun]

/-! ### Listings of a service -/

namespace Legible

variable {α : Type} {kept : σ → α} (hservice : Legible client pr comments kept)
  (hattempts : 1 ≤ client.maxAttempts)

include hservice hattempts

/-- A page that is asked for shows a slice of the list. -/
theorem page_run (s : Conversation σ) {perPage page : Nat} (hsize : 1 ≤ perPage)
    (hpage : 1 ≤ page) :
    ∃ entries s', (client.request "GET" (Client.pagePath pr perPage page)).run.run s =
        (.ok (.arr entries), s') ∧
      comments s'.transport = comments s.transport ∧ kept s'.transport = kept s.transport ∧
      List.Forall₂ Shows
        (((comments s.transport).drop ((page - 1) * perPage)).take perPage) entries := by
  obtain ⟨request, hasks, -, hrun⟩ := Client.exists_request hattempts hservice.reachable
    "GET" (by decide) (Client.pagePath pr perPage page) none
  obtain ⟨entries, t, hanswer, hsame, hkept, hshows⟩ :=
    hservice.lists s.transport request perPage page hsize hpage hasks
  obtain ⟨s', hs', rfl⟩ := hrun s _ t hanswer
  exact ⟨entries, s', hs', hsame, hkept, hshows⟩

/-- **A listing shows the first comments**: all of them, or enough to have a marked one, or as many
as the pages hold that may be read. `k` pages have been read before, none of them with a marked
comment. -/
theorem listFrom_run (marker : String) {perPage : Nat} (hsize : 1 ≤ perPage) (maxPages : Int) :
    ∀ (left k : Nat) (done : List Json) (s : Conversation σ),
      List.Forall₂ Shows ((comments s.transport).take (k * perPage)) done →
      ∃ listing s' n, (client.listFrom pr ⟨perPage, maxPages, some marker⟩ left
          ((k + 1 : Nat) : Int) done).run.run s = (.ok listing, s') ∧
        comments s'.transport = comments s.transport ∧ kept s'.transport = kept s.transport ∧
        List.Forall₂ Shows ((comments s.transport).take n) listing ∧
        ((comments s.transport).length ≤ n ∨
          ((comments s.transport).take n).any (isMarked marker) = true ∨
          n = (k + left) * perPage) := by
  intro left
  induction left with
  | zero =>
    intro k done s hdone
    exact ⟨done, s, k * perPage, rfl, rfl, rfl, hdone, .inr (.inr rfl)⟩
  | succ left ih =>
    intro k done s hdone
    obtain ⟨entries, s', hrun, hsame, hkept, hshows⟩ :=
      hservice.page_run hattempts s hsize (Nat.le_add_left 1 k)
    rw [Nat.add_sub_cancel] at hshows
    have hcount : entries.length =
        min perPage ((comments s.transport).length - k * perPage) := by
      rw [← hshows.length_eq, List.length_take, List.length_drop]
    cases entries with
    | nil =>
      have hend : (comments s.transport).length ≤ k * perPage := by
        rw [List.length_nil] at hcount
        omega
      exact ⟨done, s', k * perPage,
        Client.listFrom_empty ⟨perPage, maxPages, some marker⟩ hrun left done, hsame, hkept,
        hdone, .inl hend⟩
    | cons entry more =>
      have hdone' : List.Forall₂ Shows ((comments s.transport).take ((k + 1) * perPage))
          (done ++ entry :: more) := by
        rw [Nat.succ_mul, List.take_add]
        exact List.rel_append hdone hshows
      have hfound := findSome?_of_shows marker hshows
      rw [Client.listFrom_page ⟨perPage, maxPages, some marker⟩ hrun,
        filter_isObject_of_shows hshows, Option.any_some, hfound]
      split
      · next hstop =>
        refine ⟨done ++ entry :: more, s', (k + 1) * perPage, rfl, hsame, hkept, hdone', ?_⟩
        rw [Bool.or_eq_true, decide_eq_true_eq] at hstop
        rcases hstop with hmarked | hshort
        · right; left
          rw [Nat.succ_mul, List.take_add, List.any_append, hmarked, Bool.or_true]
        · left
          have hshort : (entry :: more).length < perPage := Int.ofNat_lt.1 hshort
          rw [Nat.succ_mul]
          omega
      · rw [← hsame] at hdone' ⊢
        rw [← hkept]
        obtain ⟨listing, s'', n, hrest, hsame', hkept', hlist, hend⟩ :=
          ih (k + 1) (done ++ entry :: more) s' hdone'
        rw [Nat.succ_add_eq_add_succ] at hend
        exact ⟨listing, s'', n, hrest, hsame', hkept', hlist, hend⟩

/-- The listing that an upsert asks for: twenty pages of a hundred comments. -/
theorem listComments_run (marker : String) (s : Conversation σ) :
    ∃ listing s' n, (client.listComments pr { stopAt := some marker }).run.run s =
        (.ok listing, s') ∧
      comments s'.transport = comments s.transport ∧ kept s'.transport = kept s.transport ∧
      List.Forall₂ Shows ((comments s.transport).take n) listing ∧
      ((comments s.transport).length ≤ n ∨
        ((comments s.transport).take n).any (isMarked marker) = true ∨ n = 2000) := by
  have hstart : List.Forall₂ Shows ((comments s.transport).take (0 * 100)) [] := by
    rw [Nat.zero_mul, List.take_zero]
    exact .nil
  exact hservice.listFrom_run hattempts marker (by decide) 20 20 0 [] s hstart

/-- **The first marked comment of at most 2000 is found.** -/
theorem find_run (marker : String) (s : Conversation σ)
    (hlength : (comments s.transport).length ≤ 2000) :
    ∃ listing s', (client.listComments pr { stopAt := some marker }).run.run s =
        (.ok listing, s') ∧
      comments s'.transport = comments s.transport ∧
      findIn marker listing =
        .ok (((comments s.transport).find? (isMarked marker)).map (·.id)) := by
  obtain ⟨listing, s', n, hrun, hsame, -, hshows, hend⟩ :=
    hservice.listComments_run hattempts marker s
  refine ⟨listing, s', hrun, hsame, findIn_of_shows_take hshows ?_⟩
  rcases hend with hend | hend | rfl
  · exact .inl hend
  · exact .inr hend
  · exact .inl hlength

/-- **Nothing is found where no comment is marked**, however many there are. -/
theorem find_none_run (marker : String) (s : Conversation σ)
    (hnone : (comments s.transport).any (isMarked marker) = false) :
    ∃ listing s', (client.listComments pr { stopAt := some marker }).run.run s =
        (.ok listing, s') ∧
      comments s'.transport = comments s.transport ∧ kept s'.transport = kept s.transport ∧
      findIn marker listing = .ok none := by
  obtain ⟨listing, s', n, hrun, hsame, hkept, hshows, -⟩ :=
    hservice.listComments_run hattempts marker s
  have hfirst : ((comments s.transport).take n).find? (isMarked marker) = none := by
    rw [List.find?_eq_none]
    intro c hc
    exact (List.any_eq_false.1 hnone) c (List.mem_of_mem_take hc)
  refine ⟨listing, s', hrun, hsame, hkept, ?_⟩
  rw [findIn_of_shows hshows, hfirst]
  rfl

end Legible

/-! ### The steps of an upsert -/

namespace Client

variable {marker : String} {listing : List Json} {s s' : Conversation σ}

/-- The listing of an upsert, as the value that is searched. -/
theorem listing_run (hlist : (client.listComments pr { stopAt := some marker }).run.run s =
      (.ok listing, s')) :
    (Json.arr <$> client.listComments pr { stopAt := some marker }).run.run s =
      (.ok (.arr listing), s') := by
  rw [map_eq_pure_bind, run_bind_ok hlist]
  rfl

/-- Where a marked comment is listed, an upsert goes on by changing it. -/
theorem upsert_of_some (hlist : (client.listComments pr { stopAt := some marker }).run.run s =
      (.ok listing, s')) {id : Int} (hfind : findIn marker listing = .ok (some id))
    (body : String) :
    (client.upsert pr marker body).run.run s =
      (do
        let _ ← client.request "PATCH" (pr.commentPath id) (some (content body))
        return .updated id : Talk σ Upserted).run.run s' := by
  have hfound : findComment marker (.arr listing) = .ok (some id) := hfind
  rw [upsert, run_bind_ok (listing_run hlist)]
  dsimp only
  rw [hfound]
  rfl

/-- Where no marked comment is listed, an upsert goes on by posting one. -/
theorem upsert_of_none (hlist : (client.listComments pr { stopAt := some marker }).run.run s =
      (.ok listing, s')) (hfind : findIn marker listing = .ok none) (body : String) :
    (client.upsert pr marker body).run.run s =
      (do
        let created ← client.request "POST" pr.commentsPath (some (content body))
        match created.field? "id" with
        | some (.int i) => return .created (some (.int i))
        | some (.bool b) => return .created (some (.bool b))
        | _ => return .created none : Talk σ Upserted).run.run s' := by
  have hfound : findComment marker (.arr listing) = .ok none := hfind
  rw [upsert, run_bind_ok (listing_run hlist)]
  dsimp only
  rw [hfound]
  rfl

/-- Where a marked comment is listed, it is changed. -/
theorem upsert_patch (hlist : (client.listComments pr { stopAt := some marker }).run.run s =
      (.ok listing, s')) {id : Int} (hfind : findIn marker listing = .ok (some id)) {body : String}
    {v : Json} {s'' : Conversation σ}
    (hrun : (client.request "PATCH" (pr.commentPath id) (some (content body))).run.run s' =
      (.ok v, s'')) :
    (client.upsert pr marker body).run.run s = (.ok (.updated id), s'') := by
  rw [upsert_of_some hlist hfind, run_bind_ok hrun]
  rfl

/-- Where no marked comment is listed, a comment is posted. -/
theorem upsert_post (hlist : (client.listComments pr { stopAt := some marker }).run.run s =
      (.ok listing, s')) (hfind : findIn marker listing = .ok none) {body : String}
    {v : Json} {s'' : Conversation σ}
    (hrun : (client.request "POST" pr.commentsPath (some (content body))).run.run s' =
      (.ok v, s'')) :
    ∃ id?, (client.upsert pr marker body).run.run s = (.ok (.created id?), s'') ∧
      ∀ id, v.field? "id" = some (.int id) → id? = some (.int id) := by
  rw [upsert_of_none hlist hfind, run_bind_ok hrun]
  split
  · next i hid =>
    exact ⟨some (.int i), rfl, fun id h => by rw [hid] at h; simpa using h⟩
  · next b hid =>
    exact ⟨some (.bool b), rfl, fun id h => by rw [hid] at h; cases h⟩
  · next hint _ =>
    exact ⟨none, rfl, fun id h => absurd h (hint id)⟩

/-- Where posting fails, so does the upsert. -/
theorem upsert_post_error (hlist : (client.listComments pr { stopAt := some marker }).run.run s =
      (.ok listing, s')) (hfind : findIn marker listing = .ok none) {body : String}
    {e : ApiFault} {s'' : Conversation σ}
    (hrun : (client.request "POST" pr.commentsPath (some (content body))).run.run s' =
      (.error e, s'')) :
    (client.upsert pr marker body).run.run s = (.error e, s'') := by
  rw [upsert_of_none hlist hfind, run_bind_error hrun]

/-- Where no marked comment is listed, an upsert ends where posting ends, and as well. -/
theorem upsert_post_run (hlist : (client.listComments pr { stopAt := some marker }).run.run s =
      (.ok listing, s')) (hfind : findIn marker listing = .ok none) (body : String) :
    ∃ result, (client.upsert pr marker body).run.run s =
        (result, ((client.request "POST" pr.commentsPath (some (content body))).run.run s').2) ∧
      result.isOk =
        ((client.request "POST" pr.commentsPath (some (content body))).run.run s').1.isOk := by
  rcases hrun : (client.request "POST" pr.commentsPath (some (content body))).run.run s' with
    ⟨result, s''⟩
  cases result with
  | ok v =>
    obtain ⟨id?, hupsert, -⟩ := upsert_post hlist hfind hrun
    exact ⟨_, hupsert, rfl⟩
  | error e => exact ⟨_, upsert_post_error hlist hfind hrun, rfl⟩

end Client

/-! ### The writes of a service -/

namespace Faithful

variable (hservice : Faithful client pr comments) (hattempts : 1 ≤ client.maxAttempts)

include hservice hattempts

/-- **A comment that is changed has its new body**, and the others are as they were. -/
theorem patch_run (s : Conversation σ) {id : Int}
    (hid : id ∈ (comments s.transport).map (·.id)) (body : String) :
    ∃ v s', (client.request "PATCH" (pr.commentPath id) (some (Client.content body))).run.run s =
        (.ok v, s') ∧
      comments s'.transport = setBody id body (comments s.transport) := by
  obtain ⟨request, hasks, hbody, hrun⟩ := Client.exists_request hattempts hservice.reachable
    "PATCH" (by decide) (pr.commentPath id) (some (Client.content body))
  obtain ⟨v, t, hanswer, hafter⟩ := hservice.edits s.transport request id body hasks
    (Request.carries_content hbody) hid
  obtain ⟨s', hs', rfl⟩ := hrun s v t hanswer
  exact ⟨v, s', hs', hafter⟩

/-- **A comment that is posted is added at the end.** -/
theorem post_run (s : Conversation σ) (hlength : (comments s.transport).length ≤ 2000)
    (body : String) :
    ∃ id v s', (client.request "POST" pr.commentsPath (some (Client.content body))).run.run s =
        (.ok v, s') ∧
      v.field? "id" = some (.int id) ∧
      comments s'.transport = comments s.transport ++ [⟨id, body⟩] := by
  obtain ⟨request, hasks, hbody, hrun⟩ := Client.exists_request hattempts hservice.reachable
    "POST" (by decide) pr.commentsPath (some (Client.content body))
  obtain ⟨id, v, t, hanswer, hshows, hafter⟩ := hservice.creates s.transport request body hlength
    hasks (Request.carries_content hbody)
  obtain ⟨s', hs', rfl⟩ := hrun s v t hanswer
  exact ⟨id, v, s', hs', hshows.1, hafter⟩

/-- **A marked comment is changed.** -/
theorem upsert_run_some {marker : String} (s : Conversation σ)
    (hlength : (comments s.transport).length ≤ 2000) {c : StoredComment}
    (hfirst : (comments s.transport).find? (isMarked marker) = some c) (body : String) :
    ∃ s', (client.upsert pr marker body).run.run s = (.ok (.updated c.id), s') ∧
      comments s'.transport = setBody c.id body (comments s.transport) := by
  obtain ⟨listing, s', hlist, hsame, hfind⟩ := hservice.find_run hattempts marker s hlength
  rw [hfirst] at hfind
  have hid : c.id ∈ (comments s'.transport).map (·.id) := by
    rw [hsame]
    exact List.mem_map_of_mem (List.mem_of_find?_eq_some hfirst)
  obtain ⟨v, s'', hpatch, hafter⟩ := hservice.patch_run hattempts s' hid body
  exact ⟨s'', Client.upsert_patch hlist hfind hpatch, by rw [hafter, hsame]⟩

/-- **Where no comment is marked, one is added at the end.** -/
theorem upsert_run_none {marker : String} (s : Conversation σ)
    (hlength : (comments s.transport).length ≤ 2000)
    (hfirst : (comments s.transport).find? (isMarked marker) = none) (body : String) :
    ∃ id s', (client.upsert pr marker body).run.run s =
        (.ok (.created (some (.int id))), s') ∧
      comments s'.transport = comments s.transport ++ [⟨id, body⟩] := by
  obtain ⟨listing, s', hlist, hsame, hfind⟩ := hservice.find_run hattempts marker s hlength
  rw [hfirst] at hfind
  obtain ⟨id, v, s'', hpost, hid, hafter⟩ :=
    hservice.post_run hattempts s' (by rw [hsame]; exact hlength) body
  obtain ⟨id?, hupsert, hcreated⟩ := Client.upsert_post hlist hfind hpost
  rw [hcreated id hid] at hupsert
  exact ⟨id, s'', hupsert, by rw [hafter, hsame]⟩

end Faithful

end Requests

end LintReport.GitHub
