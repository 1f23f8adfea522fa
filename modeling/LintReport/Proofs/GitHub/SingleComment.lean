import LintReport.Comment.Body
import LintReport.Proofs.GitHub.Desk

/-!
# A Single Comment

Posting again and again keeps one comment. Every body carries the marker, so the comment of one run
is found by the next one, and what others do to their own comments cannot hide it. The invariant
that carries the argument is about the marked comments alone: after every run they are the comment
of that run, followed by those that were marked after it from the start.

## Main results

* `Comment.contains_marker_body`: **every body carries the marker**.
* `marked_setBody`, `ForeignChange.marked_eq`: what the two kinds of changes do to the marked
  comments.
* `Faithful.posting_settled`: the invariant is kept by one run.
* `Faithful.postings_keep_one`: **one comment is created at most once and updated ever after**.
-/

namespace LintReport

/-! ### The marker -/

namespace Comment

/-- A text that starts with another one contains it. -/
theorem occursIn_of_isPrefix {part whole : List Char} (h : part <+: whole) :
    Text.occursIn part whole = true := by
  have hprefix : part.isPrefixOf whole = true := List.isPrefixOf_iff_prefix.2 h
  cases whole with
  | nil =>
    rw [List.prefix_nil] at h
    rw [h]
    rfl
  | cons c rest => rw [Text.occursIn, hprefix, Bool.true_or]

/-- Lines that are put together start with the first of them. -/
theorem contains_intercalate (first : String) (rest : List String) :
    Text.contains first ("\n".intercalate (first :: rest)) = true := by
  refine occursIn_of_isPrefix ?_
  cases rest with
  | nil => rw [String.intercalate_singleton]
  | cons second rest =>
    rw [String.intercalate_cons_cons, String.append_assoc, String.toList_append]
    exact List.prefix_append _ _

/-- **Every body carries the marker**, whatever the issues and their number are. -/
theorem contains_marker_body (context : RepoContext) (issues : List Issue) (total : Int) :
    Text.contains marker (body context issues total) = true := by
  unfold body
  split
  · exact contains_intercalate marker _
  · exact contains_intercalate marker _

/-- So does every body that does not say how many issues were found. -/
theorem contains_marker_bodyWithoutTotal (context : RepoContext) (issues : List Issue) :
    Text.contains marker (bodyWithoutTotal context issues) = true :=
  contains_intercalate marker _

/-- Whether a text is a comment about some issues. -/
def IsBody (text : String) : Prop :=
  (∃ context issues total, text = body context issues total) ∨
    ∃ context issues, text = bodyWithoutTotal context issues

/-- Every comment about some issues carries the marker. -/
theorem IsBody.contains_marker {text : String} (h : IsBody text) :
    Text.contains marker text = true := by
  rcases h with ⟨context, issues, total, rfl⟩ | ⟨context, issues, rfl⟩
  · exact contains_marker_body context issues total
  · exact contains_marker_bodyWithoutTotal context issues

end Comment

namespace GitHub

open StoredComment

/-! ### Marked comments -/

/-- The comments that carry a marker. -/
def marked (marker : String) (comments : List StoredComment) : List StoredComment :=
  comments.filter (isMarked marker)

/-- Nothing is changed where no comment has the number. -/
theorem setBody_of_notMem {id : Int} {comments : List StoredComment}
    (h : id ∉ comments.map (·.id)) (body : String) : setBody id body comments = comments := by
  rw [setBody]
  refine (List.map_congr_left fun c hc => if_neg ?_).trans (List.map_id comments)
  rintro rfl
  exact h (List.mem_map_of_mem hc)

/-- **A new body for the first marked comment** changes that comment among the marked ones, and no
other. -/
theorem marked_setBody {marker : String} {comments : List StoredComment}
    (hdistinct : (comments.map (·.id)).Nodup) {c : StoredComment} {tail : List StoredComment}
    (hmarked : marked marker comments = c :: tail) {body : String}
    (hbody : Text.contains marker body = true) :
    marked marker (setBody c.id body comments) = ⟨c.id, body⟩ :: tail := by
  induction comments with
  | nil => cases hmarked
  | cons x rest ih =>
    rw [List.map_cons, List.nodup_cons] at hdistinct
    rw [marked, List.filter_cons] at hmarked
    split at hmarked
    · next hx =>
      obtain ⟨rfl, rfl⟩ := List.cons.inj hmarked
      have hsame : setBody x.id body (x :: rest) = ⟨x.id, body⟩ :: rest := by
        have hrest := setBody_of_notMem hdistinct.1 body
        rw [setBody] at hrest ⊢
        rw [List.map_cons, hrest, if_pos rfl]
      have hnew : isMarked marker ⟨x.id, body⟩ = true := hbody
      rw [hsame, marked, List.filter_cons, if_pos hnew]
    · next hx =>
      have hc : c ∈ rest := by
        have hmem : c ∈ rest.filter (isMarked marker) := hmarked ▸ List.mem_cons_self
        exact List.mem_of_mem_filter hmem
      have hne : x.id ≠ c.id := fun h => hdistinct.1 (h ▸ List.mem_map_of_mem hc)
      have hstep : setBody c.id body (x :: rest) = x :: setBody c.id body rest := by
        rw [setBody, List.map_cons, if_neg hne]
        rfl
      rw [hstep, marked, List.filter_cons, if_neg hx]
      exact ih hdistinct.2 hmarked

/-- A new body for one comment leaves all others as they are. -/
theorem filter_setBody (id : Int) (body : String) (comments : List StoredComment) :
    (setBody id body comments).filter (·.id ≠ id) = comments.filter (·.id ≠ id) := by
  induction comments with
  | nil => rfl
  | cons c rest ih =>
    have hstep : setBody id body (c :: rest) =
        (if c.id = id then { c with body := body } else c) :: setBody id body rest := rfl
    rw [hstep]
    by_cases hc : c.id = id
    · rw [if_pos hc, List.filter_cons_of_neg (by simp [hc]), List.filter_cons_of_neg (by simp [hc]),
        ih]
    · rw [if_neg hc, List.filter_cons_of_pos (by simp [hc]), List.filter_cons_of_pos (by simp [hc]),
        ih]

/-! ### What others do -/

/-- **What others do to the comments**: they add, edit and delete comments that carry no marker. -/
inductive ForeignChange (marker : String) : List StoredComment → List StoredComment → Prop
  /-- A comment without the marker is added anywhere. -/
  | add (before after : List StoredComment) {c : StoredComment} : c.isMarked marker = false →
      ForeignChange marker (before ++ after) (before ++ c :: after)
  /-- A comment without the marker gets another body without it. -/
  | edit (before after : List StoredComment) {c : StoredComment} {body : String} :
      c.isMarked marker = false → Text.contains marker body = false →
      ForeignChange marker (before ++ c :: after) (before ++ { c with body := body } :: after)
  /-- A comment without the marker is deleted. -/
  | delete (before after : List StoredComment) {c : StoredComment} : c.isMarked marker = false →
      ForeignChange marker (before ++ c :: after) (before ++ after)

/-- **Others do not change the marked comments.** -/
theorem ForeignChange.marked_eq {marker : String} {old new : List StoredComment}
    (h : ForeignChange marker old new) : marked marker new = marked marker old := by
  have hdrop (before after : List StoredComment) (c : StoredComment)
      (hc : c.isMarked marker = false) :
      marked marker (before ++ c :: after) = marked marker (before ++ after) := by
    rw [marked, marked, List.filter_append, List.filter_append,
      List.filter_cons_of_neg (by simp [hc])]
  cases h with
  | @add before after c hc => exact hdrop before after c hc
  | @edit before after c body hc hbody =>
    rw [hdrop before after { c with body := body } hbody, hdrop before after c hc]
  | @delete before after c hc => exact (hdrop before after c hc).symm

/-- Nor do they in any number of changes. -/
theorem marked_eq_of_foreign {marker : String} {old new : List StoredComment}
    (h : Relation.ReflTransGen (ForeignChange marker) old new) :
    marked marker new = marked marker old := by
  induction h with
  | refl => rfl
  | tail _ hlast ih => rw [hlast.marked_eq, ih]

/-! ### One run -/

variable {σ : Type}

/-- A run that posts a body, from where it starts. -/
structure Posting (σ : Type) where
  start : Conversation σ
  body : String

namespace Posting

/-- What a run ends in. -/
def outcome (client : Client σ) (pr : PullRequest) (p : Posting σ) : Except ApiFault Upserted :=
  ((client.upsert pr Comment.marker p.body).run.run p.start).1

/-- Where a run ends. -/
def after (client : Client σ) (pr : PullRequest) (p : Posting σ) : Conversation σ :=
  ((client.upsert pr Comment.marker p.body).run.run p.start).2

/-- Whether a run posts a comment about issues to at most 2000 comments. -/
structure IsValid (comments : σ → List StoredComment) (p : Posting σ) : Prop where
  isBody : Comment.IsBody p.body
  length_le : (comments p.start.transport).length ≤ 2000

/-- **The invariant after a run**: the marked comments are that of the run and those that were
marked after it from the start, and no other comment has changed. -/
structure Settled (client : Client σ) (pr : PullRequest) (comments : σ → List StoredComment)
    (id : Int) (tail : List StoredComment) (p : Posting σ) : Prop where
  marked_after : marked Comment.marker (comments (p.after client pr).transport) =
    ⟨id, p.body⟩ :: tail
  others_eq : (comments (p.after client pr).transport).filter (·.id ≠ id) =
    (comments p.start.transport).filter (·.id ≠ id)

end Posting

section Runs

variable {client : Client σ} {pr : PullRequest} {comments : σ → List StoredComment}

/-- The first marked comment is the head of the marked ones. -/
theorem find?_eq_head?_marked (marker : String) (cs : List StoredComment) :
    cs.find? (isMarked marker) = (marked marker cs).head? := by
  rw [marked, List.head?_filter]

variable (hservice : Faithful client pr comments) (hattempts : 1 ≤ client.maxAttempts)

include hservice hattempts

/-- **A run that finds marked comments updates the first of them.** -/
theorem Faithful.posting_settled {p : Posting σ} (hvalid : p.IsValid comments)
    {c : StoredComment} {tail : List StoredComment}
    (hmarked : marked Comment.marker (comments p.start.transport) = c :: tail) :
    p.outcome client pr = .ok (.updated c.id) ∧ p.Settled client pr comments c.id tail := by
  have hfirst : (comments p.start.transport).find? (isMarked Comment.marker) = some c := by
    rw [find?_eq_head?_marked, hmarked]
    rfl
  obtain ⟨s', hrun, hafter⟩ :=
    hservice.upsert_run_some hattempts p.start hvalid.length_le hfirst p.body
  have hend : p.after client pr = s' := by rw [Posting.after, hrun]
  refine ⟨by rw [Posting.outcome, hrun], ⟨?_, ?_⟩⟩
  · rw [hend, hafter]
    exact marked_setBody (hservice.distinct _) hmarked hvalid.isBody.contains_marker
  · rw [hend, hafter]
    exact filter_setBody c.id p.body _

/-- **A run that finds no marked comment creates one.** -/
theorem Faithful.posting_created {p : Posting σ} (hvalid : p.IsValid comments)
    (hmarked : marked Comment.marker (comments p.start.transport) = []) :
    ∃ id, p.outcome client pr = .ok (.created (some (.int id))) ∧
      p.Settled client pr comments id [] := by
  have hfirst : (comments p.start.transport).find? (isMarked Comment.marker) = none := by
    rw [find?_eq_head?_marked, hmarked]
    rfl
  obtain ⟨id, s', hrun, hafter⟩ :=
    hservice.upsert_run_none hattempts p.start hvalid.length_le hfirst p.body
  have hend : p.after client pr = s' := by rw [Posting.after, hrun]
  have hnew : isMarked Comment.marker ⟨id, p.body⟩ = true := hvalid.isBody.contains_marker
  refine ⟨id, by rw [Posting.outcome, hrun], ⟨?_, ?_⟩⟩
  · rw [hend, hafter, marked, List.filter_append, ← marked, hmarked, List.nil_append,
      List.filter_singleton, hnew]
    rfl
  · rw [hend, hafter, List.filter_append, List.filter_singleton]
    simp

/-! ### Many runs -/

/-- After a settled run every later one updates the same comment, whatever others do in between. -/
theorem Faithful.later_postings {id : Int} {tail : List StoredComment} (rest : List (Posting σ)) :
    ∀ p : Posting σ, p.Settled client pr comments id tail →
      (∀ q ∈ rest, q.IsValid comments) →
      (p :: rest).IsChain (fun p q => Relation.ReflTransGen (ForeignChange Comment.marker)
        (comments (p.after client pr).transport) (comments q.start.transport)) →
      ∀ q ∈ rest, q.outcome client pr = .ok (.updated id) ∧
        q.Settled client pr comments id tail := by
  induction rest with
  | nil =>
    intro p _ _ _ q hq
    cases hq
  | cons next rest ih =>
    intro p hp hvalid hchain
    rw [List.isChain_cons_cons] at hchain
    have hmarked : marked Comment.marker (comments next.start.transport) =
        ⟨id, p.body⟩ :: tail := by
      rw [marked_eq_of_foreign hchain.1, hp.marked_after]
    have hnext := hservice.posting_settled hattempts (hvalid next List.mem_cons_self) hmarked
    intro q hq
    rcases List.mem_cons.1 hq with rfl | hq
    · exact hnext
    · exact ih next hnext.2 (fun r hr => hvalid r (List.mem_cons_of_mem next hr)) hchain.2 q hq

/-- **Posting again and again keeps one comment.** For every faithful service, every list of
comments at the start and every sequence of runs, with changes to unmarked comments in between: the
first run creates a comment exactly when none is marked, every later run updates the comment of the
first one, there are as many marked comments after each run as at the start, or one, that comment
has the body of the last run, and no run changes another comment. -/
theorem Faithful.postings_keep_one (first : Posting σ) (rest : List (Posting σ))
    (hvalid : ∀ p ∈ first :: rest, p.IsValid comments)
    (hchain : (first :: rest).IsChain fun p q =>
      Relation.ReflTransGen (ForeignChange Comment.marker)
        (comments (p.after client pr).transport) (comments q.start.transport)) :
    ∃ id,
      first.outcome client pr =
        .ok (if marked Comment.marker (comments first.start.transport) = []
          then .created (some (.int id)) else .updated id) ∧
      (∀ p ∈ rest, p.outcome client pr = .ok (.updated id)) ∧
      ∀ p ∈ first :: rest,
        (marked Comment.marker (comments (p.after client pr).transport)).length =
          max 1 (marked Comment.marker (comments first.start.transport)).length ∧
        ⟨id, p.body⟩ ∈ comments (p.after client pr).transport ∧
        ((comments (p.after client pr).transport).map (·.id)).Nodup ∧
        (comments (p.after client pr).transport).filter (·.id ≠ id) =
          (comments p.start.transport).filter (·.id ≠ id) := by
  obtain ⟨id, tail, houtcome, hfirst, hcount⟩ : ∃ id tail,
      first.outcome client pr =
        .ok (if marked Comment.marker (comments first.start.transport) = []
          then .created (some (.int id)) else .updated id) ∧
      first.Settled client pr comments id tail ∧
      tail.length + 1 = max 1 (marked Comment.marker (comments first.start.transport)).length := by
    have hfirst := hvalid first List.mem_cons_self
    cases hmarked : marked Comment.marker (comments first.start.transport) with
    | nil =>
      obtain ⟨id, houtcome, hsettled⟩ := hservice.posting_created hattempts hfirst hmarked
      exact ⟨id, [], by rw [houtcome, if_pos rfl], hsettled, rfl⟩
    | cons c tail =>
      obtain ⟨houtcome, hsettled⟩ := hservice.posting_settled hattempts hfirst hmarked
      refine ⟨c.id, tail, by rw [houtcome, if_neg (List.cons_ne_nil c tail)], hsettled, ?_⟩
      rw [List.length_cons]
      omega
  have hlater := hservice.later_postings hattempts rest first hfirst
    (fun p hp => hvalid p (List.mem_cons_of_mem first hp)) hchain
  refine ⟨id, houtcome, fun p hp => (hlater p hp).1, fun p hp => ?_⟩
  have hsettled : p.Settled client pr comments id tail := by
    rcases List.mem_cons.1 hp with rfl | hp
    · exact hfirst
    · exact (hlater p hp).2
  refine ⟨?_, ?_, hservice.distinct _, hsettled.others_eq⟩
  · rw [hsettled.marked_after, List.length_cons, hcount]
  · have hmem : (⟨id, p.body⟩ : StoredComment) ∈
        marked Comment.marker (comments (p.after client pr).transport) := by
      rw [hsettled.marked_after]
      exact List.mem_cons_self
    exact List.mem_of_mem_filter hmem

end Runs

/-! ### Two runs at a desk -/

namespace Desk

/-- A desk after somebody else has added a comment, if there is a short number for it. -/
def addOther (body : String) (desk : Desk) : Desk :=
  if hshort : Numeral.isShort (nextId desk.comments) = true then
    ⟨add body desk.comments, nodup_add desk.distinct body, short_add desk.short hshort body⟩
  else desk

/-- Among the comments that fit into the pages of a listing, there is one. -/
theorem comments_addOther {desk : Desk} (h : desk.comments.length ≤ 2000) (body : String) :
    (addOther body desk).comments = add body desk.comments := by
  rw [addOther, dif_pos (isShort_nextId h)]

/-- A run that finds a comment without the marker. -/
def firstPosting : Posting Desk where
  start := ⟨sampleDesk, [], [], []⟩
  body := Comment.body {} [] 0

/-- A run after somebody has added a comment. -/
def secondPosting : Posting Desk where
  start := ⟨addOther "thanks"
    (firstPosting.after (client samplePullRequest) samplePullRequest).transport, [], [], []⟩
  body := Comment.bodyWithoutTotal {} []

/-- The second run updates the comment that the first one created. -/
theorem secondPosting_updates :
    ∃ id,
      firstPosting.outcome (client samplePullRequest) samplePullRequest =
        .ok (.created (some (.int id))) ∧
      secondPosting.outcome (client samplePullRequest) samplePullRequest = .ok (.updated id) ∧
      ⟨id, secondPosting.body⟩ ∈ Desk.comments
        (secondPosting.after (client samplePullRequest) samplePullRequest).transport := by
  have hfirst : firstPosting.IsValid Desk.comments :=
    ⟨.inl ⟨{}, [], 0, rfl⟩, by decide⟩
  have hlength : (Desk.comments
      (firstPosting.after (client samplePullRequest) samplePullRequest).transport).length = 2 := by
    have hnone : (Desk.comments firstPosting.start.transport).find?
        (isMarked Comment.marker) = none := by decide +kernel
    obtain ⟨id, s', hrun, hafter⟩ := (faithful samplePullRequest).upsert_run_none (by decide)
      firstPosting.start hfirst.length_le hnone firstPosting.body
    rw [Posting.after, hrun, hafter]
    rfl
  have hstart : Desk.comments secondPosting.start.transport = add "thanks" (Desk.comments
      (firstPosting.after (client samplePullRequest) samplePullRequest).transport) :=
    comments_addOther (hlength.trans_le (by decide)) "thanks"
  have hsecond : secondPosting.IsValid Desk.comments := by
    refine ⟨.inr ⟨{}, [], rfl⟩, ?_⟩
    rw [hstart, add, List.length_append, hlength]
    decide
  have hchange : ForeignChange Comment.marker
      (Desk.comments (firstPosting.after (client samplePullRequest) samplePullRequest).transport)
      (Desk.comments secondPosting.start.transport) := by
    have hadd (cs : List StoredComment) : ForeignChange Comment.marker (cs ++ [])
        (cs ++ [⟨nextId cs, "thanks"⟩]) :=
      .add cs [] (by
        change Text.contains Comment.marker "thanks" = false
        decide)
    have hlast := hadd
      (Desk.comments (firstPosting.after (client samplePullRequest) samplePullRequest).transport)
    rw [List.append_nil] at hlast
    rw [hstart]
    exact hlast
  have hinitial : marked Comment.marker (Desk.comments firstPosting.start.transport) = [] := by
    decide +kernel
  obtain ⟨id, houtcome, hlater, hafter⟩ := (faithful samplePullRequest).postings_keep_one
    (by decide) firstPosting [secondPosting]
    (List.forall_mem_cons.2 ⟨hfirst, List.forall_mem_singleton.2 hsecond⟩)
    (List.isChain_pair.2 (.single hchange))
  rw [if_pos hinitial] at houtcome
  have hlast : secondPosting ∈ [firstPosting, secondPosting] :=
    List.mem_cons_of_mem _ List.mem_cons_self
  exact ⟨id, houtcome, hlater secondPosting List.mem_cons_self, (hafter secondPosting hlast).2.1⟩

end Desk

end GitHub

end LintReport
