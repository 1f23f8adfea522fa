import LintReport.Proofs.GitHub.Upserting

/-!
# Listings That Stop Early

A listing may stop behind the page that shows the marked comment. What it stops for is what the
search in the whole listing finds: on each page the same comments count as marked, and the first of
them on the pages that were read is the first of all. So the two listings start alike, and what is
written after them is the same.

## Main results

* `Client.listFrom_stopping`: **a listing that stops early starts the whole listing**.
* `Client.listComments_stopping`: the same comment is found in both.
* `Client.upsert_eq_settle`: an upsert is a listing, and then an upsert with what was listed.
* `Client.upsert_settles`: what an upsert with given comments sends.
* `Client.stopping_keeps_decision`: **stopping early changes neither the search nor the write**.
-/

namespace LintReport.GitHub

variable {σ : Type}

namespace Client

variable {client : Client σ} {pr : PullRequest}

/-! ### Two listings -/

/-- A listing that stops at a marker goes on where the whole listing does, unless the page shows a
marked comment. -/
theorem goesOn_stopAt (perPage maxPages : Int) (marker : String) (v : Json) :
    (⟨perPage, maxPages, some marker⟩ : Paging).goesOn v =
      ((⟨perPage, maxPages, none⟩ : Paging).goesOn v &&
        ((pageComments v).findSome? (markedId? marker)).isNone) := by
  cases v with
  | arr entries => simp [Paging.goesOn]
  | _ => rfl

/-- The comments of a listing are objects, so the search in it looks at all of them. -/
theorem findIn_of_listed {paging : Paging} {listing : List Json} {s s' : Conversation σ}
    (hrun : (client.listComments pr paging).run.run s = (.ok listing, s')) (marker : String) :
    findIn marker listing = .ok (listing.findSome? (markedId? marker)) := by
  obtain ⟨pages, hlists, -⟩ := lists_of_listed hrun
  rw [hlists.eq_flatMap_comments]
  exact findIn_flatMap_comments marker pages

/-- **A listing that stops early starts the whole listing**: it shows the first of its comments and
sends the first of its requests. What it leaves out comes after a marked comment. -/
theorem listFrom_stopping (client : Client σ) (pr : PullRequest) (perPage maxPages : Int)
    (marker : String) (left : Nat) :
    ∀ (page : Int) (done all : List Json) (s s' : Conversation σ),
      (client.listFrom pr ⟨perPage, maxPages, none⟩ left page done).run.run s = (.ok all, s') →
      ∃ (seen later : List Json) (s'' : Conversation σ) (sent more : List Request),
        (client.listFrom pr ⟨perPage, maxPages, some marker⟩ left page done).run.run s =
          (.ok (done ++ seen), s'') ∧
        all = done ++ seen ++ later ∧ s''.sent = s.sent ++ sent ∧ s'.sent = s''.sent ++ more ∧
        (later = [] ∨ (seen.findSome? (markedId? marker)).isSome = true) := by
  induction left with
  | zero =>
    intro page done all s s' hrun
    cases hrun
    refine ⟨[], [], s, [], [], ?_, by simp, by simp, by simp, .inl rfl⟩
    rw [List.append_nil]
    rfl
  | succ left ih =>
    intro page done all s s' hrun
    obtain ⟨es, result, s₁, -, hpage, hlogs⟩ := client.request_run "GET" (by decide)
      (pagePath pr perPage page) none s
    rw [listFrom_succ] at hrun ⊢
    cases result with
    | error fault =>
      rw [run_bind_error hpage] at hrun
      cases hrun
    | ok v =>
      rw [run_bind_ok hpage] at hrun ⊢
      rw [goesOn_stopAt]
      cases hfull : (⟨perPage, maxPages, none⟩ : Paging).goesOn v with
      | false =>
        rw [hfull, if_neg Bool.false_ne_true] at hrun
        cases hrun
        exact ⟨pageComments v, [], s', _, [], rfl, by simp, hlogs.sent, by simp, .inl rfl⟩
      | true =>
        rw [hfull, if_pos rfl] at hrun
        cases hfound : (pageComments v).findSome? (markedId? marker) with
        | none =>
          obtain ⟨seen, later, s'', sent, more, hseen, hall, hsent, hmore, hlater⟩ :=
            ih (page + 1) (done ++ pageComments v) all s₁ s' hrun
          refine ⟨pageComments v ++ seen, later, s'',
            (es.flatMap Exchange.attempts).map Prod.fst ++ sent, more, ?_, ?_, ?_, hmore, ?_⟩
          · rw [← List.append_assoc, ← hseen]
            rfl
          · rw [hall, List.append_assoc done]
          · rw [hsent, hlogs.sent, List.append_assoc]
          · rwa [List.findSome?_append, hfound, Option.none_or]
        | some id =>
          -- here the two listings part: the page shows what is looked for
          obtain ⟨pages, rest, s₂, -, hrest, hmore⟩ := client.listFrom_lists pr
            ⟨perPage, maxPages, none⟩ left (page + 1) (done ++ pageComments v) s₁
          rw [hrest] at hrun
          cases rest with
          | error fault => cases hrun
          | ok later =>
            cases hrun
            exact ⟨pageComments v, later, s₁, _, _, rfl, rfl, hlogs.sent, hmore.sent,
              .inr (by rw [hfound]; rfl)⟩

/-- **In both listings the same comment is found**: what is left out comes after the first one that
is marked. -/
theorem listComments_stopping {perPage maxPages : Int} {all : List Json} {s s' : Conversation σ}
    (hrun : (client.listComments pr ⟨perPage, maxPages, none⟩).run.run s = (.ok all, s'))
    (marker : String) :
    ∃ (seen : List Json) (s'' : Conversation σ) (sent more : List Request) (id? : Option Int),
      (client.listComments pr ⟨perPage, maxPages, some marker⟩).run.run s = (.ok seen, s'') ∧
      seen <+: all ∧ s''.sent = s.sent ++ sent ∧ s'.sent = s.sent ++ sent ++ more ∧
      findComment marker (.arr all) = .ok id? ∧ findComment marker (.arr seen) = .ok id? := by
  obtain ⟨seen, later, s'', sent, more, hseen, rfl, hsent, hmore, hlater⟩ :=
    client.listFrom_stopping pr perPage maxPages marker maxPages.toNat 1 [] all s s' hrun
  have hfirst : (seen ++ later).findSome? (markedId? marker) =
      seen.findSome? (markedId? marker) := by
    rw [List.findSome?_append]
    rcases hlater with rfl | hlater
    · exact Option.or_none
    · exact Option.or_of_isSome hlater
  have hfound : findIn marker (seen ++ later) = _ := findIn_of_listed hrun marker
  refine ⟨seen, s'', sent, more, seen.findSome? (markedId? marker), hseen,
    List.prefix_append seen later, hsent, by rw [hmore, hsent], ?_, findIn_of_listed hseen marker⟩
  rw [← hfirst]
  exact hfound

/-! ### What is written after a listing -/

/-- An upsert is a listing, and then an upsert with what was listed. -/
theorem upsert_eq_settle (client : Client σ) (pr : PullRequest) (marker body : String) :
    client.upsert pr marker body =
      (Json.arr <$> client.listComments pr { stopAt := some marker }) >>= fun listing =>
        client.upsert pr marker body (some listing) := by
  simp only [upsert, pure_bind]

/-- **What an upsert with given comments sends**: one request, which the search in them decides,
some number of times. -/
theorem upsert_settles (hattempts : 1 ≤ client.maxAttempts)
    (hposted : (client.address? pr.commentsPath).isSome = true)
    (hchanged : ∀ id, (client.address? (pr.commentPath id)).isSome = true)
    (marker body : String) (id? : Option Int) :
    ∃ write : Request, write.IsWrite ∧
      ∀ listing : Json, findComment marker listing = .ok id? → ∀ s : Conversation σ, ∃ n,
        ((client.upsert pr marker body (some listing)).run.run s).2.sent =
          s.sent ++ List.replicate (n + 1) write := by
  cases id? with
  | some id =>
    obtain ⟨url, hurl⟩ := Option.isSome_iff_exists.1 (hchanged id)
    refine ⟨client.requestTo "PATCH" url (some (content body)), .inl rfl,
      fun listing hfind s => ?_⟩
    obtain ⟨n, hsent⟩ := request_sends hattempts hurl "PATCH" (some (content body)) s
    refine ⟨n, hsent ▸ ?_⟩
    simp only [upsert, pure_bind, hfind]
    exact congrArg Conversation.sent (run_bind_snd (fun _ _ => rfl) s)
  | none =>
    obtain ⟨url, hurl⟩ := Option.isSome_iff_exists.1 hposted
    refine ⟨client.requestTo "POST" url (some (content body)), .inr rfl,
      fun listing hfind s => ?_⟩
    obtain ⟨n, hsent⟩ := request_sends hattempts hurl "POST" (some (content body)) s
    refine ⟨n, hsent ▸ ?_⟩
    simp only [upsert, pure_bind, hfind]
    refine congrArg Conversation.sent (run_bind_snd (fun created s => ?_) s)
    split <;> rfl

/-- Where a page was listed, the comments of the pull request can be opened, and so can each of
them. -/
theorem address_of_listed {paging : Paging} (hpages : 1 ≤ paging.maxPages) {listing : List Json}
    {s s' : Conversation σ}
    (hrun : (client.listComments pr paging).run.run s = (.ok listing, s')) :
    1 ≤ client.maxAttempts ∧ (client.address? pr.commentsPath).isSome = true ∧
      ∀ id, (client.address? (pr.commentPath id)).isSome = true := by
  obtain ⟨pages, hlists, -⟩ := lists_of_listed hrun
  rw [show paging.maxPages.toNat = paging.maxPages.toNat - 1 + 1 by omega] at hlists
  obtain ⟨hasks, -, hlost⟩ := hlists.asks 0 (List.getElem?_eq_getElem hlists.length_pos)
  exact ⟨by omega, commentsPath_address_of_page (Option.isSome_iff_exists.2 ⟨_, hasks.2⟩)⟩

/-! ### Stopping early -/

/-- **Stopping early changes neither the search nor the write.** Where a whole listing is given, a
listing that stops behind the page with a marked comment is given as well: it starts the whole one,
sends the first of its requests and no others, and the same comment is found in both. And an upsert
that lists the comments itself writes, after reading, what an upsert with the whole listing
writes. -/
theorem stopping_keeps_decision (client : Client σ) (pr : PullRequest) (marker : String)
    (s : Conversation σ) :
    (∀ (perPage maxPages : Int) (all : List Json) (s' : Conversation σ),
      (client.listComments pr ⟨perPage, maxPages, none⟩).run.run s = (.ok all, s') →
      ∃ (seen : List Json) (s'' : Conversation σ) (sent more : List Request) (id? : Option Int),
        (client.listComments pr ⟨perPage, maxPages, some marker⟩).run.run s = (.ok seen, s'') ∧
        seen <+: all ∧ s''.sent = s.sent ++ sent ∧ s'.sent = s.sent ++ sent ++ more ∧
        findComment marker (.arr all) = .ok id? ∧ findComment marker (.arr seen) = .ok id?) ∧
    ∀ (body : String) (all : List Json) (s' : Conversation σ),
      (client.listComments pr {}).run.run s = (.ok all, s') →
      ∃ (reads : List Request) (write : Request), (∀ read ∈ reads, read.method = "GET") ∧
        write.IsWrite ∧
        (∃ m, ((client.upsert pr marker body).run.run s).2.sent =
          s.sent ++ reads ++ List.replicate (m + 1) write) ∧
        ∀ t : Conversation σ, ∃ n,
          ((client.upsert pr marker body (some (.arr all))).run.run t).2.sent =
            t.sent ++ List.replicate (n + 1) write := by
  refine ⟨fun _ _ _ _ hrun => listComments_stopping hrun marker, fun body all s' hrun => ?_⟩
  obtain ⟨seen, s'', -, -, id?, hseen, -, -, -, hall, hfound⟩ := listComments_stopping hrun marker
  obtain ⟨hattempts, hposted, hchanged⟩ := address_of_listed (by decide) hrun
  obtain ⟨write, hmethod, hwrite⟩ := upsert_settles hattempts hposted hchanged marker body id?
  obtain ⟨pages, hlists, hlogs⟩ := lists_of_listed hseen
  refine ⟨(pages.flatMap Exchange.attempts).map Prod.fst, write, hlists.method_eq, hmethod, ?_,
    hwrite _ hall⟩
  obtain ⟨m, hsent⟩ := hwrite _ hfound s''
  have hlisting : (Json.arr <$> client.listComments pr { stopAt := some marker }).run.run s =
      (.ok (.arr seen), s'') := listing_run hseen
  refine ⟨m, ?_⟩
  rw [upsert_eq_settle, run_bind_ok hlisting, hsent, hlogs.sent]

end Client

/-- Pages of two entries: a number and a marked comment with a text for a number, a marked comment
with a truth value for a number and one whose body is a list, and a comment behind both. -/
def markedPages : List Reply :=
  [⟨200, Text.Utf8.encode "[5, \x7b\"id\": \"x\", \"body\": \"m\"\x7d]"⟩,
    ⟨200, Text.Utf8.encode ("[\x7b\"id\": true, \"body\": \"m\"\x7d, " ++
      "\x7b\"id\": 4, \"body\": [\"m\"]\x7d]")⟩,
    ⟨200, Text.Utf8.encode "[\x7b\"id\": 9, \"body\": \"m\"\x7d]"⟩]

/-- The search stops behind the second page, because of the comment whose body is a list, and leaves
out the third page. In another conversation the write has two attempts after one page. -/
theorem markedPages_stop_early :
    (∃ (all seen : List Json) (s' s'' : Conversation (List Reply)),
      (scripted.listComments scriptedPullRequest ⟨2, 20, none⟩).run.run
        { transport := markedPages } = (.ok all, s') ∧
      (scripted.listComments scriptedPullRequest ⟨2, 20, some "m"⟩).run.run
        { transport := markedPages } = (.ok seen, s'') ∧
      seen <+: all ∧ all.length = 4 ∧ s'.sent.length = 3 ∧ s''.sent.length = 2 ∧
      findComment "m" (.arr all) = .ok (some 4) ∧ findComment "m" (.arr seen) = .ok (some 4)) ∧
    ∃ (listed : List Json) (s' : Conversation (List Reply)) (write : Request),
      (scripted.listComments scriptedPullRequest {}).run.run { transport := markedReplies } =
        (.ok listed, s') ∧ write.method = "PATCH" ∧
      ((scripted.upsert scriptedPullRequest "m" "b").run.run
        { transport := markedReplies }).2.sent.getLast? = some write ∧
      ((scripted.upsert scriptedPullRequest "m" "b" (some (.arr listed))).run.run
        s').2.sent.getLast? = some write := by
  have hcounts :
      let whole := (scripted.listComments scriptedPullRequest ⟨2, 20, none⟩).run.run
        { transport := markedPages }
      let stopping := (scripted.listComments scriptedPullRequest ⟨2, 20, some "m"⟩).run.run
        { transport := markedPages }
      whole.1.toOption.map List.length = some 4 ∧ whole.2.sent.length = 3 ∧
        stopping.1.toOption.map (fun seen => findComment "m" (.arr seen)) = some (.ok (some 4)) ∧
        stopping.2.sent.length = 2 := by
    decide +kernel
  obtain ⟨hlength, hthree, hfour, htwo⟩ := hcounts
  have hlisted : ((scripted.listComments scriptedPullRequest {}).run.run
      { transport := markedReplies }).1.toOption.map List.length = some 2 := by
    decide +kernel
  have hmethod : ((scripted.upsert scriptedPullRequest "m" "b").run.run
      { transport := markedReplies }).2.sent.getLast?.map (·.method) = some "PATCH" := by
    decide +kernel
  obtain ⟨all, hall, hlength⟩ := exists_run_ok hlength
  obtain ⟨listed, hlisted, -⟩ := exists_run_ok hlisted
  constructor
  · obtain ⟨seen, s'', sent, more, id?, hseen, hprefix, -, -, hfirst, hsame⟩ :=
      (scripted.stopping_keeps_decision scriptedPullRequest "m" _).1 2 20 all _ hall
    rw [hseen] at hfour htwo
    obtain rfl : id? = some 4 := Except.ok.inj (hsame.symm.trans (Option.some.inj hfour))
    exact ⟨all, seen, _, s'', hall, hseen, hprefix, hlength, hthree, htwo, hfirst, hsame⟩
  · obtain ⟨reads, write, -, -, ⟨m, hsent⟩, hgiven⟩ :=
      (scripted.stopping_keeps_decision scriptedPullRequest "m" _).2 "b" listed _ hlisted
    obtain ⟨n, hmore⟩ := hgiven
      ((scripted.listComments scriptedPullRequest {}).run.run { transport := markedReplies }).2
    have hlast (before : List Request) (n : Nat) :
        (before ++ List.replicate (n + 1) write).getLast? = some write := by
      rw [List.replicate_succ', ← List.append_assoc, List.getLast?_concat]
    rw [hsent, hlast] at hmethod
    refine ⟨listed, _, write, hlisted, Option.some.inj hmethod, ?_, ?_⟩
    · rw [hsent, hlast]
    · rw [hmore, hlast]

end LintReport.GitHub
