import LintReport.Proofs.GitHub.Upserting

/-!
# Listings That Show Nothing

The content of a reply that is no page, such as an empty one, counts as the end of a listing. So an
upsert takes it for a sign that there is no marked comment, and posts another one. Every other
listing before a posted comment is what it should be: full pages, and then a page that is not full,
unless as many pages were read as may be.

## Main definitions

* `Reply.IsPage`: whether the content of a reply is an array.
* `ShowsAll`: whether the replies to a listing show that there are no other comments.

## Main results

* `Client.upsert_posts_garbled`: **a comment is posted after an incomplete listing exactly where a
  reply was no page**.
* `emptyReply_posts`: an empty reply has a comment posted.
-/

namespace LintReport.GitHub

variable {σ : Type}

/-- Whether the content of a reply is a page, that is, an array. Empty content, content that is not
UTF-8 or not JSON, and any other value are none. -/
def Reply.IsPage (reply : Reply) : Prop :=
  ∃ text entries, Text.Utf8.decode? reply.content = some text ∧
    Json.parse text = .ok (.arr entries)

/-- The value of a reply is an array exactly when its content is a page. -/
theorem Reply.isPage_iff {reply : Reply} :
    reply.IsPage ↔ ∃ entries, reply.value = .ok (.arr entries) := by
  rw [IsPage, value]
  cases Text.Utf8.decode? reply.content with
  | none => simp
  | some text =>
    simp only [Option.some.injEq, exists_and_left, exists_eq_left']
    cases Json.parse text with
    | error fault => cases fault <;> simp
    | ok v => simp

namespace Exchange

/-- Whether a request was done, but the reply is no page. There was room for the reply: without it
the request would not count as done. -/
def IsGarbled (e : Exchange) : Prop :=
  ∃ reply, e.ended = .ok reply ∧ reply.isDone = true ∧ reply.IsReadable ∧ ¬ reply.IsPage

/-- A reply is garbled when its value is no array. -/
theorem isGarbled_iff {e : Exchange} :
    e.IsGarbled ↔ ∃ v, e.value? = some v ∧ ∀ entries, v ≠ .arr entries := by
  simp only [IsGarbled, Reply.isPage_iff, Reply.IsReadable, not_exists]
  rw [value?]
  cases e.ended with
  | error reason => simp
  | ok reply =>
    simp only [Except.ok.injEq, exists_eq_left']
    cases reply.value <;> simp [Except.toOption]

end Exchange

/-- Whether the replies to a listing show that there are no other comments: all of them are pages,
and the last one is not full, or it is the last one that may be asked for. -/
structure ShowsAll (pages : List Exchange) : Prop where
  isPage : ∀ e ∈ pages, ∃ entries, e.value? = some (.arr entries)
  ends : pages.length = 20 ∨ ∃ e entries, pages.getLast? = some e ∧
    e.value? = some (.arr entries) ∧ entries.length < 100

/-! ### Pages of a listing -/

/-- A page after which others are read is full and shows no marked comment. -/
theorem Paging.goesOn_iff {marker : String} {v : Json} :
    ({ stopAt := some marker } : Paging).goesOn v = true ↔
      ∃ entries, v = .arr entries ∧ 100 ≤ entries.length ∧
        (pageComments v).findSome? (markedId? marker) = none := by
  cases v with
  | arr entries =>
    rw [goesOn, Bool.and_eq_true, Bool.and_eq_true, decide_eq_true_eq, Option.all_some,
      Option.isNone_iff_eq_none]
    constructor
    · rintro ⟨⟨-, hfull⟩, hnone⟩
      exact ⟨entries, rfl, Int.ofNat_le.1 hfull, hnone⟩
    · rintro ⟨_, ⟨⟩, hfull, hnone⟩
      refine ⟨⟨?_, Int.ofNat_le.2 hfull⟩, hnone⟩
      cases entries with
      | nil => cases hfull
      | cons entry more => rfl
  | _ => simp [goesOn]

/-- Where no comment on a page is marked, a listing goes on after it exactly when it is full. -/
theorem length_lt_of_goesOn {marker : String} {entries : List Json}
    (hends : ({ stopAt := some marker } : Paging).goesOn (.arr entries) = false)
    (hnone : (pageComments (.arr entries)).findSome? (markedId? marker) = none) :
    entries.length < 100 := by
  by_contra hfull
  rw [Paging.goesOn_iff.2 ⟨entries, rfl, Nat.not_lt.1 hfull, hnone⟩] at hends
  cases hends

/-- Where no comment is marked on some pages, none is on each of them. -/
theorem findSome?_of_firstMarked {marker : String} {pages : List Exchange}
    (hnone : firstMarked marker pages = none) {e : Exchange} (he : e ∈ pages) {v : Json}
    (hv : e.value? = some v) : (pageComments v).findSome? (markedId? marker) = none := by
  rw [firstMarked, List.findSome?_eq_none_iff] at hnone
  rw [List.findSome?_eq_none_iff, ← Exchange.comments_eq hv]
  exact fun comment hcomment => hnone comment (List.mem_flatMap.2 ⟨e, he, hcomment⟩)

namespace Client

variable {client : Client σ} {pr : PullRequest} {marker body : String}

/-- Full pages are not garbled. -/
theorem not_isGarbled_of_goesOn {e : Exchange}
    (h : ∃ v, e.value? = some v ∧ ({ stopAt := some marker } : Paging).goesOn v = true) :
    ¬ e.IsGarbled := by
  obtain ⟨v, hv, hgoesOn⟩ := h
  obtain ⟨entries, rfl, -⟩ := Paging.goesOn_iff.1 hgoesOn
  rw [Exchange.isGarbled_iff, hv]
  rintro ⟨v, ⟨⟩, hnone⟩
  exact hnone entries rfl

/-- **A listing without a marked comment shows that there are no others** exactly when none of its
replies is garbled. -/
theorem Lists.showsAll_iff {pages : List Exchange} {comments : List Json}
    (h : client.Lists pr { stopAt := some marker } 20 1 pages (.ok comments))
    (hnone : firstMarked marker pages = none) :
    ShowsAll pages ↔ ∀ e ∈ pages, ¬ e.IsGarbled := by
  constructor
  · intro hshows e he hgarbled
    obtain ⟨entries, hv⟩ := hshows.isPage e he
    obtain ⟨v, hv', hno⟩ := Exchange.isGarbled_iff.1 hgarbled
    rw [hv, Option.some.injEq] at hv'
    exact hno entries hv'.symm
  · intro hclear
    have hpage : ∀ e ∈ pages, ∃ entries, e.value? = some (.arr entries) := by
      intro e he
      obtain ⟨v, hv⟩ := Exchange.isDone_iff.1 (h.isDone_of_ok e he)
      by_contra hno
      have hgarbled : e.IsGarbled := by
        rw [Exchange.isGarbled_iff]
        exact ⟨v, hv, fun entries hentries => hno ⟨entries, by rw [hv, hentries]⟩⟩
      exact hclear e he hgarbled
    refine ⟨hpage, ?_⟩
    obtain ⟨full, last, rfl, -, ⟨rfl, hlength⟩ | ⟨e, v, rfl, hv, hends, -⟩⟩ := h.exists_full
    · left
      rw [List.append_nil]
      exact hlength
    · right
      have he : e ∈ full ++ [e] := List.mem_append_right _ List.mem_cons_self
      obtain ⟨entries, hentries⟩ := hpage e he
      rw [hv, Option.some.injEq] at hentries
      subst hentries
      exact ⟨e, entries, List.getLast?_concat, hv,
        length_lt_of_goesOn hends (findSome?_of_firstMarked hnone he hv)⟩

/-- **A garbled reply ends a listing**, and no comment before it is marked. -/
theorem Lists.of_isGarbled {pages : List Exchange} {listed : Except ApiFault (List Json)}
    (h : client.Lists pr { stopAt := some marker } 20 1 pages listed) {e : Exchange}
    (he : e ∈ pages) (hgarbled : e.IsGarbled) :
    (∃ comments, listed = .ok comments) ∧ pages.getLast? = some e ∧
      firstMarked marker pages = none := by
  cases listed with
  | error fault =>
    obtain ⟨full, failed, n, rfl, hfull, hfailed⟩ := h.of_error
    rcases List.mem_append.1 he with he | he
    · exact absurd hgarbled (not_isGarbled_of_goesOn (hfull e he))
    · obtain ⟨reply, hended, hdone, hreadable, -⟩ := hgarbled
      exact absurd ⟨reply, hended, hdone, hreadable⟩ (hfailed.not_isDone_of_error e he)
  | ok comments =>
    obtain ⟨full, last, rfl, hfull, hlast⟩ := h.exists_full
    rcases List.mem_append.1 he with he | he
    · exact absurd hgarbled (not_isGarbled_of_goesOn (hfull e he))
    · obtain ⟨rfl, -⟩ | ⟨e', v, rfl, hv, -⟩ := hlast
      · cases he
      · rw [List.mem_singleton] at he
        subst he
        refine ⟨⟨comments, rfl⟩, List.getLast?_concat, ?_⟩
        rw [firstMarked, List.findSome?_eq_none_iff]
        intro comment hcomment
        obtain ⟨page, hpage, hcomment⟩ := List.mem_flatMap.1 hcomment
        rcases List.mem_append.1 hpage with hpage | hpage
        · obtain ⟨w, hw, hgoesOn⟩ := hfull page hpage
          obtain ⟨-, -, -, hnone⟩ := Paging.goesOn_iff.1 hgoesOn
          rw [Exchange.comments_eq hw] at hcomment
          exact List.findSome?_eq_none_iff.1 hnone comment hcomment
        · -- the garbled reply itself holds no comments
          rw [List.mem_singleton.1 hpage, Exchange.comments_eq hv] at hcomment
          obtain ⟨w, hw, hno⟩ := Exchange.isGarbled_iff.1 hgarbled
          rw [hv, Option.some.injEq] at hw
          subst hw
          cases v with
          | arr entries => exact absurd rfl (hno entries)
          | _ => cases hcomment

/-- **A comment is posted after an incomplete listing exactly where a reply was no page.** Whatever
a transport does, the listing before a posted comment shows that there are no other comments if and
only if none of the replies is garbled. A garbled reply is the last one of a listing and has a
comment posted, whatever comments there are. -/
theorem upsert_posts_garbled (client : Client σ) (pr : PullRequest) (marker body : String)
    (s : Conversation σ) :
    ∃ (pages write : List Exchange) (result : Except ApiFault Upserted) (s' : Conversation σ),
      (client.upsert pr marker body).run.run s = (result, s') ∧
      client.Logs ((pages ++ write).flatMap Exchange.attempts) s s' ∧
      (∀ (i : Nat) (e : Exchange), pages[i]? = some e →
        client.Asks "GET" (pagePath pr 100 (1 + i)) e.request) ∧
      ((∃ e ∈ write, e.request.method = "POST") →
        (ShowsAll pages ↔ ∀ e ∈ pages, ¬ e.IsGarbled)) ∧
      ((Request.normalizeUrl? client.apiUrl).isSome = true → ∀ e ∈ pages, e.IsGarbled →
        pages.getLast? = some e ∧ ∃ w ∈ write, w.request.method = "POST") := by
  obtain ⟨pages, write, result, s', hupserts, hrun, hlogs⟩ := client.upsert_upserts pr marker body s
  refine ⟨pages, write, result, s', hrun, hlogs, ?_⟩
  cases hupserts with
  | unlisted hlists =>
    refine ⟨fun i e he => (hlists.asks i he).1, by simp, fun _ e he hgarbled => ?_⟩
    obtain ⟨⟨comments, hok⟩, -⟩ := hlists.of_isGarbled he hgarbled
    cases hok
  | updated hlists hfirst hrequested =>
    refine ⟨fun i e he => (hlists.asks i he).1, ?_, fun _ e he hgarbled => ?_⟩
    · rintro ⟨e, he, hpost⟩
      rw [(hrequested.asks e he).1.1] at hpost
      exact absurd hpost (by decide)
    · obtain ⟨-, -, hnone⟩ := hlists.of_isGarbled he hgarbled
      rw [hfirst] at hnone
      cases hnone
  | created hlists hfirst hrequested =>
    refine ⟨fun i e he => (hlists.asks i he).1, fun _ => hlists.showsAll_iff hfirst,
      fun hscheme e he hgarbled => ?_⟩
    obtain ⟨-, hlast, -⟩ := hlists.of_isGarbled he hgarbled
    obtain ⟨i, hi⟩ := List.getElem?_of_mem he
    have hmin : 1 ≤ client.maxAttempts := by
      have := (hlists.asks i hi).2.2
      omega
    obtain ⟨w, rfl, -⟩ := hrequested.exists_exchange (commentsPath_address hscheme pr) hmin
    exact ⟨hlast, w, List.mem_cons_self, (hrequested.asks w List.mem_cons_self).1.1⟩

end Client

/-- **An empty reply has a comment posted.** Nothing in it shows that no comment is marked. -/
theorem emptyReply_posts :
    ¬ (⟨200, []⟩ : Reply).IsPage ∧
      ((scripted.upsert scriptedPullRequest "m" "b").run.run
        { transport := [⟨200, []⟩, ⟨201, [123, 125]⟩] }).2.sent.map (·.method) =
          ["GET", "POST"] := by
  constructor
  · rw [Reply.isPage_iff]
    rintro ⟨entries, hvalue⟩
    have hempty : (⟨200, []⟩ : Reply).value = .ok (.obj []) := rfl
    rw [hempty] at hvalue
    cases hvalue
  · decide +kernel

end LintReport.GitHub
