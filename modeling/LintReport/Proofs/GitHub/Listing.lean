import LintReport.Proofs.GitHub.Exchange

/-!
# Listings, Page by Page

A listing asks for one page after the other. It goes on after a page that is full and shows no
marked comment, and ends with any other reply, whether that is a page or not. So its exchanges are
full pages and then at most one more exchange, for every transport.

## Main definitions

* `Paging.goesOn`: whether further pages are asked for.
* `Client.Lists`: the exchanges of a listing, and its result.

## Main results

* `Client.listFrom_succ`: what a listing does with one page.
* `Client.listFrom_lists`, `Client.lists_of_listed`: **a listing is a list of exchanges**, for every
  transport.
* `Client.Lists.asks`: the pages are asked for in order.
* `Client.Lists.exists_full`: full pages, and then the one that ends the listing.
* `Client.Lists.eq_flatMap_comments`, `Client.Lists.of_error`: the two ways in which it ends.
-/

namespace LintReport.GitHub

variable {σ : Type}

/-! ### Pages -/

/-- The comments that a page holds: the objects in it. -/
def pageComments : Json → List Json
  | .arr entries => entries.filter isObject
  | _ => []

/-- Whether further pages are asked for after a page: it is full, and none of its comments carries
the marker. -/
def Paging.goesOn (paging : Paging) : Json → Bool
  | .arr entries =>
    !entries.isEmpty && decide (paging.perPage ≤ (entries.length : Int)) &&
      paging.stopAt.all fun marker =>
        ((pageComments (.arr entries)).findSome? (markedId? marker)).isNone
  | _ => false

/-- The comments that the reply to a page holds. -/
def Exchange.comments (e : Exchange) : List Json := (e.value?.map pageComments).getD []

/-- The comments of a page that was read are those of its value. -/
theorem Exchange.comments_eq {e : Exchange} {v : Json} (h : e.value? = some v) :
    e.comments = pageComments v := by
  rw [comments, h]
  rfl

namespace Client

variable {client : Client σ} {pr : PullRequest} {paging : Paging}

/-- **What a listing does with one page**: its comments are added to those before it. -/
theorem listFrom_succ (client : Client σ) (pr : PullRequest) (paging : Paging) (left : Nat)
    (page : Int) (done : List Json) :
    client.listFrom pr paging (left + 1) page done =
      (do
        let v ← client.request "GET" (pagePath pr paging.perPage page)
        if paging.goesOn v then client.listFrom pr paging left (page + 1) (done ++ pageComments v)
        else return done ++ pageComments v) := by
  rw [listFrom]
  congr 1
  funext v
  cases v with
  | arr entries =>
    cases entries with
    | nil => simp [Paging.goesOn, pageComments]
    | cons entry more =>
      have hgoesOn : paging.goesOn (.arr (entry :: more)) =
          !((paging.stopAt.any fun marker =>
              ((pageComments (.arr (entry :: more))).findSome? (markedId? marker)).isSome) ||
            decide (((entry :: more).length : Int) < paging.perPage)) := by
        rw [Paging.goesOn, List.isEmpty_cons, Bool.not_false, Bool.true_and, Bool.not_or,
          Bool.and_comm, ← decide_not]
        cases paging.stopAt <;> simp
      dsimp only
      split
      · next hends =>
        rw [hgoesOn.trans (congrArg not hends), Bool.not_true, if_neg Bool.false_ne_true]
        rfl
      · next hends =>
        rw [hgoesOn.trans (congrArg not (Bool.eq_false_iff.2 hends)), Bool.not_false, if_pos rfl]
        rfl
  | _ => simp [Paging.goesOn, pageComments]

/-- The exchanges of a listing from a page on, of which `left` may be asked for, and its result. -/
inductive Lists (client : Client σ) (pr : PullRequest) (paging : Paging) :
    Nat → Int → List Exchange → Except ApiFault (List Json) → Prop
  /-- As many pages have been read as may be. -/
  | enough (page : Int) : Lists client pr paging 0 page [] (.ok [])
  /-- A page could not be read. -/
  | failed {left : Nat} {page : Int} {es : List Exchange} {fault : ApiFault} :
    client.Requested "GET" (pagePath pr paging.perPage page) none es (.error fault) →
    Lists client pr paging (left + 1) page es (.error fault)
  /-- The last page. -/
  | last {left : Nat} {page : Int} {es : List Exchange} {v : Json} :
    client.Requested "GET" (pagePath pr paging.perPage page) none es (.ok v) →
    paging.goesOn v = false → Lists client pr paging (left + 1) page es (.ok (pageComments v))
  /-- A page after which others are read. -/
  | next {left : Nat} {page : Int} {es rest : List Exchange} {v : Json}
    {result : Except ApiFault (List Json)} :
    client.Requested "GET" (pagePath pr paging.perPage page) none es (.ok v) →
    paging.goesOn v = true → Lists client pr paging left (page + 1) rest result →
    Lists client pr paging (left + 1) page (es ++ rest) (result.map (pageComments v ++ ·))

/-- **A listing is a list of exchanges**, whatever the transport does. -/
theorem listFrom_lists (client : Client σ) (pr : PullRequest) (paging : Paging) (left : Nat) :
    ∀ (page : Int) (done : List Json) (s : Conversation σ),
      ∃ (es : List Exchange) (result : Except ApiFault (List Json)) (s' : Conversation σ),
        client.Lists pr paging left page es result ∧
        (client.listFrom pr paging left page done).run.run s = (result.map (done ++ ·), s') ∧
        client.Logs (es.flatMap Exchange.attempts) s s' := by
  induction left with
  | zero =>
    intro page done s
    refine ⟨[], _, s, .enough page, ?_, .refl client s⟩
    rw [listFrom, Except.map, List.append_nil]
    rfl
  | succ left ih =>
    intro page done s
    obtain ⟨es, result, s', hrequested, hrun, hlogs⟩ := client.request_run "GET" (by decide)
      (pagePath pr paging.perPage page) none s
    rw [listFrom_succ]
    cases result with
    | error fault => exact ⟨es, _, s', .failed hrequested, run_bind_error hrun, hlogs⟩
    | ok v =>
      rw [run_bind_ok hrun]
      cases hgoesOn : paging.goesOn v with
      | false => exact ⟨es, _, s', .last hrequested hgoesOn, rfl, hlogs⟩
      | true =>
        obtain ⟨rest, result, s'', hlists, hrest, hmore⟩ :=
          ih (page + 1) (done ++ pageComments v) s'
        refine ⟨es ++ rest, _, s'', .next hrequested hgoesOn hlists, ?_, ?_⟩
        · rw [if_pos rfl, hrest]
          cases result with
          | error fault => rfl
          | ok comments => rw [Except.map, Except.map, Except.map, List.append_assoc]
        · rw [List.flatMap_append]
          exact hlogs.trans hmore

/-- A listing that was given is that of some exchanges. -/
theorem lists_of_listed {paging : Paging} {listing : List Json} {s s' : Conversation σ}
    (hrun : (client.listComments pr paging).run.run s = (.ok listing, s')) :
    ∃ pages : List Exchange, client.Lists pr paging paging.maxPages.toNat 1 pages (.ok listing) ∧
      client.Logs (pages.flatMap Exchange.attempts) s s' := by
  obtain ⟨pages, result, after, hlists, hlisted, hlogs⟩ :=
    client.listFrom_lists pr paging paging.maxPages.toNat 1 [] s
  have hsame := hrun.symm.trans hlisted
  cases result with
  | error fault => cases hsame
  | ok comments =>
    obtain ⟨hcomments, rfl⟩ := Prod.mk.inj hsame
    obtain rfl : listing = comments := Except.ok.inj hcomments
    exact ⟨pages, hlists, hlogs⟩

namespace Lists

variable {left : Nat} {page : Int} {es : List Exchange}
  {result : Except ApiFault (List Json)} {comments : List Json} {fault : ApiFault}

/-- No more pages are asked for than may be. -/
theorem length_le (h : client.Lists pr paging left page es result) : es.length ≤ left := by
  induction h with
  | enough => exact Nat.le_refl 0
  | failed hrequested => exact hrequested.length_le.trans (Nat.le_add_left 1 _)
  | last hrequested => exact hrequested.length_le.trans (Nat.le_add_left 1 _)
  | next hrequested _ _ ih =>
    rw [List.length_append, Nat.add_comm]
    exact Nat.add_le_add ih hrequested.length_le

/-- **The pages are asked for in order**, each in one exchange. -/
theorem asks (h : client.Lists pr paging left page es result) (i : Nat) {e : Exchange}
    (he : es[i]? = some e) :
    client.Asks "GET" (pagePath pr paging.perPage (page + i)) e.request ∧ e.request.body = none ∧
      (e.lost.length : Int) < client.maxAttempts := by
  have hfirst {page : Int} {es : List Exchange} {result : Except ApiFault Json} {i : Nat}
      (hrequested : client.Requested "GET" (pagePath pr paging.perPage page) none es result)
      (he : es[i]? = some e) :
      client.Asks "GET" (pagePath pr paging.perPage (page + i)) e.request ∧
        e.request.body = none ∧ (e.lost.length : Int) < client.maxAttempts := by
    obtain ⟨hi, -⟩ := List.getElem?_eq_some_iff.1 he
    have hzero : i = 0 := by
      have := hrequested.length_le
      omega
    rw [hzero, Int.natCast_zero, Int.add_zero]
    exact hrequested.asks e (List.mem_of_getElem? he)
  induction h generalizing i with
  | enough => cases he
  | failed hrequested => exact hfirst hrequested he
  | last hrequested => exact hfirst hrequested he
  | @next left page es rest v result hrequested _ _ ih =>
    obtain ⟨first, rfl, -⟩ := hrequested.exists_of_ok
    cases i with
    | zero => exact hfirst hrequested he
    | succ i =>
      rw [Int.natCast_add, Int.natCast_one, Int.add_comm (i : Int) 1, ← Int.add_assoc]
      exact ih i he

/-- All that a listing sends are questions. -/
theorem method_eq (h : client.Lists pr paging left page es result) :
    ∀ request ∈ (es.flatMap Exchange.attempts).map Prod.fst, request.method = "GET" := by
  intro request hrequest
  obtain ⟨e, he, rfl⟩ := Exchange.mem_requests_iff.1 hrequest
  obtain ⟨i, hi⟩ := List.getElem?_of_mem he
  exact (h.asks i hi).1.1

/-- A listing that fails has failed to read a page, after full ones. -/
theorem of_error (h : client.Lists pr paging left page es (.error fault)) :
    ∃ (full failed : List Exchange) (n : Int), es = full ++ failed ∧
      (∀ e ∈ full, ∃ v, e.value? = some v ∧ paging.goesOn v = true) ∧
      client.Requested "GET" (pagePath pr paging.perPage n) none failed (.error fault) := by
  generalize hresult : Except.error fault = result at h
  induction h with
  | enough => cases hresult
  | failed hrequested =>
    cases hresult
    exact ⟨[], _, _, rfl, List.forall_mem_nil _, hrequested⟩
  | last => cases hresult
  | @next left page es rest v result hrequested hgoesOn _ ih =>
    cases result with
    | ok comments => cases hresult
    | error fault =>
      cases hresult
      obtain ⟨e, rfl, hvalue⟩ := hrequested.exists_of_ok
      obtain ⟨full, failed, n, rfl, hfull, hfailed⟩ := ih rfl
      exact ⟨e :: full, failed, n, rfl, List.forall_mem_cons.2 ⟨⟨v, hvalue, hgoesOn⟩, hfull⟩,
        hfailed⟩

/-- **Full pages, and then the page that ends the listing**, unless as many have been read as may
be. -/
theorem exists_full (h : client.Lists pr paging left page es (.ok comments)) :
    ∃ full last, es = full ++ last ∧
      (∀ e ∈ full, ∃ v, e.value? = some v ∧ paging.goesOn v = true) ∧
      (last = [] ∧ full.length = left ∨
        ∃ e v, last = [e] ∧ e.value? = some v ∧ paging.goesOn v = false ∧ full.length < left) := by
  generalize hresult : Except.ok comments = result at h
  induction h generalizing comments with
  | enough => exact ⟨[], [], rfl, List.forall_mem_nil _, .inl ⟨rfl, rfl⟩⟩
  | failed => cases hresult
  | last hrequested hends =>
    obtain ⟨e, rfl, hvalue⟩ := hrequested.exists_of_ok
    exact ⟨[], [e], rfl, List.forall_mem_nil _,
      .inr ⟨e, _, rfl, hvalue, hends, Nat.succ_pos _⟩⟩
  | @next left page es rest v result hrequested hgoesOn _ ih =>
    cases result with
    | error fault => cases hresult
    | ok comments =>
      obtain ⟨e, rfl, hvalue⟩ := hrequested.exists_of_ok
      obtain ⟨full, last, rfl, hfull, hlast⟩ := ih rfl
      refine ⟨e :: full, last, rfl, List.forall_mem_cons.2 ⟨⟨v, hvalue, hgoesOn⟩, hfull⟩, ?_⟩
      rcases hlast with ⟨rfl, rfl⟩ | ⟨e, v, rfl, hvalue, hends, hlength⟩
      · exact .inl ⟨rfl, rfl⟩
      · exact .inr ⟨e, v, rfl, hvalue, hends, Nat.succ_lt_succ hlength⟩

/-- Every page of a listing that succeeds was read. -/
theorem isDone_of_ok (h : client.Lists pr paging left page es (.ok comments)) :
    ∀ e ∈ es, e.IsDone := by
  obtain ⟨full, last, rfl, hfull, hlast⟩ := h.exists_full
  intro e he
  rw [Exchange.isDone_iff]
  rcases List.mem_append.1 he with he | he
  · obtain ⟨v, hvalue, -⟩ := hfull e he
    exact ⟨v, hvalue⟩
  · rcases hlast with ⟨rfl, -⟩ | ⟨e', v, rfl, hvalue, -⟩
    · cases he
    · rw [List.mem_singleton.1 he]
      exact ⟨v, hvalue⟩

/-- A listing that may ask for a page and succeeds has read one. -/
theorem length_pos (h : client.Lists pr paging (left + 1) page es (.ok comments)) :
    1 ≤ es.length := by
  obtain ⟨full, last, rfl, -, ⟨-, hlength⟩ | ⟨e, v, rfl, -⟩⟩ := h.exists_full
  · rw [List.length_append, hlength]
    omega
  · rw [List.length_append, List.length_singleton]
    omega

/-- **A listing that succeeds holds the comments of its pages**, in the order of reading. -/
theorem eq_flatMap_comments (h : client.Lists pr paging left page es (.ok comments)) :
    comments = es.flatMap Exchange.comments := by
  generalize hresult : Except.ok comments = result at h
  induction h generalizing comments with
  | enough =>
    cases hresult
    rfl
  | failed => cases hresult
  | last hrequested =>
    cases hresult
    obtain ⟨e, rfl, hvalue⟩ := hrequested.exists_of_ok
    rw [List.flatMap_singleton, Exchange.comments_eq hvalue]
  | @next left page es rest v result hrequested _ _ ih =>
    cases result with
    | error fault => cases hresult
    | ok more =>
      cases hresult
      obtain ⟨e, rfl, hvalue⟩ := hrequested.exists_of_ok
      rw [List.singleton_append, List.flatMap_cons, Exchange.comments_eq hvalue, ← ih rfl]

end Lists

end Client

end LintReport.GitHub
