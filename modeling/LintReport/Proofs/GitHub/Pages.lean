import LintReport.Proofs.GitHub.Desk
import LintReport.Proofs.GitHub.Listing

/-!
# Pages of One List

A code host shows a list of comments in slices, and a listing without a marker puts the slices
together again. It ends with the page limit, with a page that is not full, or with an empty page
where the comments fill their pages; in each case it has asked for one page more than the comments
fill, if it may.

## Main definitions

* `ShowsPages`: what is relied on of the service.

## Main results

* `ShowsPages.page_run`: a page is one request.
* `ShowsPages.listFrom_run`: **the pages from one on hold the comments from there on**.
* `ShowsPages.lists_first_comments`: **a listing loses and repeats nothing**, and asks for no page
  too many.
-/

namespace LintReport.GitHub

variable {σ : Type}

/-- **A service that shows its comments in pages** of one size: a page is the slice of the comments
with its number, and is empty behind the last comment. -/
structure ShowsPages (client : Client σ) (pr : PullRequest) (perPage : Nat)
    (comments : σ → List Json) : Prop where
  /-- Every page has an address. -/
  reachable : ∀ page : Nat, 1 ≤ page →
    (client.address? (Client.pagePath pr perPage page)).isSome = true
  /-- Comments are objects. -/
  objects : ∀ t, ∀ comment ∈ comments t, isObject comment = true
  /-- A page that is asked for is answered with its slice, and the comments stay as they are. -/
  answers : ∀ (t : σ) (request : Request) (page : Nat), 1 ≤ page →
    client.Asks "GET" (Client.pagePath pr perPage page) request →
    ∃ t', client.Answers request t
        (.arr (((comments t).drop ((page - 1) * perPage)).take perPage)) t' ∧
      comments t' = comments t

/-- Without a marker, further pages are asked for after a slice exactly when it is full. -/
theorem goesOn_take {perPage : Nat} (hsize : 1 ≤ perPage) (maxPages : Int) (rest : List Json) :
    (⟨perPage, maxPages, none⟩ : Paging).goesOn (.arr (rest.take perPage)) =
      decide (perPage ≤ rest.length) := by
  have hlength : (perPage : Int) ≤ ((rest.take perPage).length : Int) ↔ perPage ≤ rest.length := by
    rw [List.length_take]
    omega
  rw [Paging.goesOn, Option.all_none, Bool.and_true, decide_eq_decide.2 hlength]
  by_cases hfull : perPage ≤ rest.length
  · have hne : rest.take perPage ≠ [] := by
      rw [← List.length_pos_iff, List.length_take]
      omega
    rw [List.isEmpty_eq_false_iff.2 hne, Bool.not_false, Bool.true_and]
  · rw [decide_eq_false hfull, Bool.and_false]

namespace ShowsPages

variable {client : Client σ} {pr : PullRequest} {perPage : Nat} {comments : σ → List Json}
  (hservice : ShowsPages client pr perPage comments) (hattempts : 1 ≤ client.maxAttempts)

include hservice hattempts

/-- A page is one request, and its answer is a slice. -/
theorem page_run (s : Conversation σ) (k : Nat) :
    ∃ request s',
      (client.request "GET" (Client.pagePath pr perPage ((k + 1 : Nat) : Int))).run.run s =
        (.ok (.arr (((comments s.transport).drop (k * perPage)).take perPage)), s') ∧
      client.Asks "GET" (Client.pagePath pr perPage ((k + 1 : Nat) : Int)) request ∧
      s'.sent = s.sent ++ [request] ∧ comments s'.transport = comments s.transport := by
  obtain ⟨url, hurl⟩ :=
    Option.isSome_iff_exists.1 (hservice.reachable (k + 1) (Nat.le_add_left 1 k))
  have hasks : client.Asks "GET" (Client.pagePath pr perPage ((k + 1 : Nat) : Int))
      (client.requestTo "GET" url none) := ⟨rfl, hurl⟩
  obtain ⟨t, ⟨reply, hcarry, hdone, hvalue⟩, hsame⟩ :=
    hservice.answers s.transport _ (k + 1) (Nat.le_add_left 1 k) hasks
  refine ⟨_, Client.afterSend s _ t, ?_, hasks, rfl, hsame⟩
  rw [Nat.add_sub_cancel] at hvalue
  exact Client.request_done hattempts (Client.build?_eq hurl "GET" none) hcarry hvalue hdone

/-- **The pages from one on hold the comments from there on**, as far as they may be read. `k` pages
stand before them, and what is left is one page shorter after each of them. -/
theorem listFrom_run (hsize : 1 ≤ perPage) (maxPages : Int) (left : Nat) :
    ∀ (k : Nat) (done rest : List Json) (s : Conversation σ),
      rest = (comments s.transport).drop (k * perPage) →
      ∃ asked s', (client.listFrom pr ⟨perPage, maxPages, none⟩ left
          ((k + 1 : Nat) : Int) done).run.run s = (.ok (done ++ rest.take (left * perPage)), s') ∧
        s'.sent = s.sent ++ asked ∧ asked.length = min left (rest.length / perPage + 1) ∧
        ∀ (i : Nat) (request : Request), asked[i]? = some request →
          client.Asks "GET" (Client.pagePath pr perPage ((k + i + 1 : Nat) : Int)) request := by
  induction left with
  | zero =>
    intro k done rest s hrest
    refine ⟨[], s, ?_, by simp, by simp, by simp⟩
    rw [Nat.zero_mul, List.take_zero, List.append_nil]
    rfl
  | succ left ih =>
    intro k done rest s hrest
    obtain ⟨request, s', hrun, hasks, hsent, hsame⟩ := hservice.page_run hattempts s k
    rw [← hrest] at hrun
    have hpage : pageComments (.arr (rest.take perPage)) = rest.take perPage := by
      refine List.filter_eq_self.2 fun comment hcomment => hservice.objects s.transport comment ?_
      rw [hrest] at hcomment
      exact List.mem_of_mem_drop (List.mem_of_mem_take hcomment)
    rw [Client.listFrom_succ, run_bind_ok hrun, goesOn_take hsize, hpage]
    by_cases hfull : perPage ≤ rest.length
    · -- a full page: the rest of the listing is one page shorter
      have hnext : rest.drop perPage = (comments s'.transport).drop ((k + 1) * perPage) := by
        rw [hrest, hsame, List.drop_drop, Nat.succ_mul]
      obtain ⟨asked, s'', hlisted, hmore, hlength, hnumbers⟩ :=
        ih (k + 1) (done ++ rest.take perPage) (rest.drop perPage) s' hnext
      refine ⟨request :: asked, s'', ?_, ?_, ?_, ?_⟩
      · have hparts : rest.take ((left + 1) * perPage) =
            rest.take perPage ++ (rest.drop perPage).take (left * perPage) := by
          rw [Nat.succ_mul, Nat.add_comm, List.take_add]
        rw [decide_eq_true hfull, if_pos rfl, hparts, ← List.append_assoc, ← hlisted]
        rfl
      · rw [hmore, hsent, List.append_assoc, List.singleton_append]
      · have hcount : rest.length / perPage = (rest.drop perPage).length / perPage + 1 := by
          rw [List.length_drop]
          exact Nat.div_eq_sub_div hsize hfull
        rw [List.length_cons, hlength, hcount]
        omega
      · intro i later hlater
        cases i with
        | zero =>
          rw [List.getElem?_cons_zero, Option.some.injEq] at hlater
          rwa [← hlater]
        | succ i =>
          rw [List.getElem?_cons_succ] at hlater
          have hnumber := hnumbers i later hlater
          rwa [Nat.add_right_comm k 1 i, Nat.add_assoc k i 1] at hnumber
    · -- a page that is not full is the last one
      have hshort : rest.length < perPage := Nat.lt_of_not_le hfull
      have hwhole : rest.take ((left + 1) * perPage) = rest.take perPage := by
        rw [List.take_of_length_le (Nat.le_of_lt hshort), List.take_of_length_le]
        rw [Nat.succ_mul]
        omega
      refine ⟨[request], s', ?_, hsent, ?_, ?_⟩
      · rw [decide_eq_false hfull, if_neg Bool.false_ne_true, hwhole]
        rfl
      · rw [List.length_singleton, Nat.div_eq_of_lt hshort]
        omega
      · intro i later hlater
        obtain ⟨rfl, rfl⟩ : i = 0 ∧ request = later := by
          simpa [List.getElem?_singleton] using hlater
        exact hasks

/-- **A listing loses and repeats nothing.** Without a marker it gives the first comments in their
order, as many as the pages hold that may be read, and it asks for the pages in order, for one more
than the comments fill if it may. -/
theorem lists_first_comments (hsize : 1 ≤ perPage) (maxPages : Nat) (s : Conversation σ) :
    ∃ asked s', (client.listComments pr ⟨perPage, maxPages, none⟩).run.run s =
        (.ok ((comments s.transport).take
          (min (comments s.transport).length (perPage * maxPages))), s') ∧
      s'.sent = s.sent ++ asked ∧
      asked.length = min maxPages ((comments s.transport).length / perPage + 1) ∧
      ∀ (i : Nat) (request : Request), asked[i]? = some request →
        client.Asks "GET" (Client.pagePath pr perPage ((i + 1 : Nat) : Int)) request := by
  have hstart : comments s.transport = (comments s.transport).drop (0 * perPage) := by
    rw [Nat.zero_mul, List.drop_zero]
  obtain ⟨asked, s', hrun, hsent, hlength, hnumbers⟩ :=
    hservice.listFrom_run hattempts hsize maxPages maxPages 0 [] _ s hstart
  refine ⟨asked, s', ?_, hsent, hlength, fun i request hrequest => ?_⟩
  · rw [Nat.mul_comm perPage, Nat.min_comm, ← List.take_eq_take_min]
    exact hrun
  · have hnumber := hnumbers i request hrequest
    rwa [Nat.zero_add] at hnumber

end ShowsPages

namespace Desk

/-- A desk shows its comments in pages of every size. -/
theorem showsPages (pr : PullRequest) (perPage : Nat) :
    ShowsPages (client pr) pr perPage fun desk => desk.comments.map shown where
  reachable := fun _ _ => (faithful pr).reachable _
  objects := by
    intro desk comment hcomment
    obtain ⟨c, -, rfl⟩ := List.mem_map.1 hcomment
    rfl
  answers := by
    intro desk request page _ hasks
    refine ⟨desk, ?_, rfl⟩
    rw [← List.map_drop, ← List.map_take]
    exact answers_page pr desk hasks

/-- A desk with four comments. -/
def fourComments : Desk := { comments := [⟨7, "a"⟩, ⟨2, "b"⟩, ⟨9, "c"⟩, ⟨4, "d"⟩] }

/-- Four comments fill two pages of two, so a third page is asked for, and not where the limit is
two pages. -/
theorem fourComments_listed :
    (∃ asked s', ((client samplePullRequest).listComments samplePullRequest ⟨2, 20, none⟩).run.run
        { transport := fourComments } = (.ok (fourComments.comments.map shown), s') ∧
      s'.sent = asked ∧ asked.length = 3) ∧
    ∃ asked s', ((client samplePullRequest).listComments samplePullRequest ⟨2, 2, none⟩).run.run
        { transport := fourComments } = (.ok (fourComments.comments.map shown), s') ∧
      s'.sent = asked ∧ asked.length = 2 := by
  constructor
  · obtain ⟨asked, s', hrun, hsent, hlength, -⟩ :=
      (showsPages samplePullRequest 2).lists_first_comments (by decide) (by decide) 20
        { transport := fourComments }
    exact ⟨asked, s', hrun, hsent, hlength⟩
  · obtain ⟨asked, s', hrun, hsent, hlength, -⟩ :=
      (showsPages samplePullRequest 2).lists_first_comments (by decide) (by decide) 2
        { transport := fourComments }
    exact ⟨asked, s', hrun, hsent, hlength⟩

end Desk

end LintReport.GitHub
