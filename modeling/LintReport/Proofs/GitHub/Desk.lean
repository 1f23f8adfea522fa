import LintReport.Proofs.GitHub.Scheme
import LintReport.Proofs.GitHub.Service

/-!
# A Service in Memory

A desk holds the comments of one pull request in a list and answers requests about them: it reads
the page and its size off the address, finds the comment to change by its address, and gives a new
comment the first number that is free. It shows that the laws of a faithful service can be met.

Its numbers are short enough to be read, and a desk refuses a comment that it has no such number
for. That does not happen to a desk whose comments fit into the pages of a listing.

## Main results

* `Desk.trailingNumber_append`: the number at the end of an address is read back.
* `Desk.nextId_notMem`, `Desk.nextId_le`: a free number exists, and it is at most one above how many
  comments there are.
* `Desk.faithful`: **a desk is a faithful service**.
-/

namespace LintReport.GitHub

/-- Comments with distinct numbers that can be read. -/
structure Desk where
  comments : List StoredComment := []
  distinct : (comments.map (·.id)).Nodup := by decide
  short : ∀ id ∈ comments.map (·.id), Numeral.isShort id = true := by decide

namespace Desk

open StoredComment

/-! ### Numbers in addresses -/

/-- The number at the end of an address, and what stands before it. -/
def trailingNumber (url : List Char) : Nat × List Char :=
  (Json.natOfDigits (url.reverse.takeWhile Char.isDigit).reverse,
    (url.reverse.dropWhile Char.isDigit).reverse)

/-- **The number at the end of an address is read back**, if no digit stands before it. -/
theorem trailingNumber_append {before : List Char} {mark : Char} (hmark : mark.isDigit = false)
    (n : Nat) :
    trailingNumber (before ++ mark :: Nat.toDigits 10 n) = (n, before ++ [mark]) := by
  have hdigits : ∀ c ∈ (Nat.toDigits 10 n).reverse, c.isDigit = true := fun c hc =>
    Json.isDigit_of_mem_digits (List.mem_reverse.1 hc)
  have hreverse : (before ++ mark :: Nat.toDigits 10 n).reverse =
      (Nat.toDigits 10 n).reverse ++ mark :: before.reverse := by simp
  rw [trailingNumber, hreverse, List.takeWhile_append_of_pos hdigits,
    List.takeWhile_cons_of_neg (by simp [hmark]), List.append_nil, List.reverse_reverse,
    Json.natOfDigits_toDigits, List.dropWhile_append_of_pos hdigits,
    List.dropWhile_cons_of_neg (by simp [hmark]), List.reverse_cons, List.reverse_reverse]

/-- The decimal digits of a natural number. -/
theorem natChars_eq (n : Nat) : (toString (n : Int)).toList = Nat.toDigits 10 n := by
  rw [Json.intChars_eq, if_neg (Int.not_lt.2 (Int.natCast_nonneg n)), Int.natAbs_natCast]

/-! ### Addresses -/

/-- Where the code host is. -/
def host : String := "https://api.github.com"

/-- An address of the code host that ends in a number is used as it stands. -/
theorem normalizeUrl?_host {path : String} {last : Char}
    (hlast : path.toList.getLast? = some last) (hdigit : last.isDigit = true) :
    Request.normalizeUrl? (host ++ path) = some (host ++ path) := by
  have hend : (host ++ path).toList.getLast? = some last := by
    rw [String.toList_append, List.getLast?_append, hlast, Option.some_or]
  have hmark : last ≠ '#' := Text.ne_of_test hdigit (by decide)
  refine Request.normalizeUrl?_eq_self ?_ hend (Text.isBlank_of_isDigit hdigit) hmark
  exact ⟨"https".toList, "//api.github.com".toList ++ path.toList, by
      rw [String.toList_append, ← List.cons_append, ← List.append_assoc]
      rfl, by decide, List.all_eq_true.1 (by decide)⟩

/-! ### Answers -/

/-- A comment as it is shown. -/
def shown (c : StoredComment) : Json := .obj [("id", .int c.id), ("body", .str c.body)]

/-- A reply with a value. -/
def reply (status : Int) (v : Json) : Reply := ⟨status, Text.Utf8.encode v.compact⟩

/-- The body that a request carries. -/
def written? (request : Request) : Option String := do
  let text ← request.body
  match Json.parse text with
  | .ok content => (content.field? "body").bind Json.text?
  | .error _ => none

/-- The number of the next comment: the first one from 1 on that no comment has. -/
def nextId (comments : List StoredComment) : Int :=
  (((List.range (comments.length + 1)).map fun n : Nat => (n : Int) + 1).find? fun id =>
    id ∉ comments.map (·.id)).getD 0

/-- The page of comments that an address asks for. -/
def pageAt (url : String) (comments : List StoredComment) : List StoredComment :=
  let (page, before) := trailingNumber url.toList
  let (perPage, _) := trailingNumber (before.take (before.length - "&page=".length))
  (comments.drop ((page - 1) * perPage)).take perPage

/-- The comments after the one at an address has got a new body. -/
def editAt (pr : PullRequest) (url body : String) (comments : List StoredComment) :
    List StoredComment :=
  comments.map fun c => if host ++ pr.commentPath c.id = url then { c with body := body } else c

/-- The comments after one more has been added. -/
def add (body : String) (comments : List StoredComment) : List StoredComment :=
  comments ++ [⟨nextId comments, body⟩]

/-- Editing keeps the numbers. -/
theorem map_id_editAt (pr : PullRequest) (url body : String) (comments : List StoredComment) :
    (editAt pr url body comments).map (·.id) = comments.map (·.id) := by
  rw [editAt, List.map_map]
  refine List.map_congr_left fun c _ => ?_
  rw [Function.comp_apply]
  split <;> rfl

/-- **One of the numbers up to one above the count of comments is free**: there are more of them
than comments. -/
theorem exists_nextId (comments : List StoredComment) :
    ∃ n ≤ comments.length, nextId comments = (n : Int) + 1 ∧
      nextId comments ∉ comments.map (·.id) := by
  have hinjective : Function.Injective fun n : Nat => (n : Int) + 1 := fun a b h => by
    simpa using h
  rw [nextId]
  cases hfind : ((List.range (comments.length + 1)).map fun n : Nat => (n : Int) + 1).find?
      fun id => id ∉ comments.map (·.id) with
  | none =>
    rw [List.find?_eq_none] at hfind
    have hsubset : (List.range (comments.length + 1)).map (fun n : Nat => (n : Int) + 1) ⊆
        comments.map (·.id) := fun id hid => by simpa using hfind id hid
    have hlength := (((List.nodup_range).map hinjective).subperm hsubset).length_le
    rw [List.length_map, List.length_map, List.length_range] at hlength
    exact absurd hlength (Nat.not_succ_le_self _)
  | some id =>
    obtain ⟨n, hn, rfl⟩ := List.mem_map.1 (List.mem_of_find?_eq_some hfind)
    exact ⟨n, Nat.le_of_lt_succ (List.mem_range.1 hn), rfl, by simpa using List.find?_some hfind⟩

/-- No comment has the number of the next one. -/
theorem nextId_notMem (comments : List StoredComment) :
    nextId comments ∉ comments.map (·.id) := by
  obtain ⟨_, _, _, hfree⟩ := exists_nextId comments
  exact hfree

/-- The number of the next comment is at most one above how many comments there are. -/
theorem nextId_le (comments : List StoredComment) :
    (nextId comments).natAbs ≤ comments.length + 1 := by
  obtain ⟨n, hn, hnext, -⟩ := exists_nextId comments
  omega

/-- Among the comments that fit into the pages of a listing, the next one has a short number. -/
theorem isShort_nextId {comments : List StoredComment} (h : comments.length ≤ 2000) :
    Numeral.isShort (nextId comments) = true := by
  refine Json.isShort_of_lt (Nat.lt_of_le_of_lt (nextId_le comments) ?_)
  calc comments.length + 1 < 10 ^ 4 := by omega
    _ ≤ 10 ^ Numeral.maxDigits := Nat.pow_le_pow_right (by decide) (by decide)

/-- Adding keeps the numbers distinct. -/
theorem nodup_add {comments : List StoredComment} (h : (comments.map (·.id)).Nodup)
    (body : String) : ((add body comments).map (·.id)).Nodup := by
  rw [add, List.map_append, List.map_singleton]
  refine List.nodup_append.2 ⟨h, List.nodup_singleton _, fun a ha b hb => ?_⟩
  rw [List.mem_singleton] at hb
  rintro rfl
  rw [hb] at ha
  exact nextId_notMem comments ha

/-- Adding a short number keeps the numbers short. -/
theorem short_add {comments : List StoredComment}
    (h : ∀ id ∈ comments.map (·.id), Numeral.isShort id = true)
    (hnext : Numeral.isShort (nextId comments) = true) (body : String) :
    ∀ id ∈ (add body comments).map (·.id), Numeral.isShort id = true := by
  rw [add, List.map_append, List.forall_mem_append]
  exact ⟨h, List.forall_mem_singleton.2 hnext⟩

/-- The answer of a desk to a request, and the desk after it. -/
def carry (pr : PullRequest) : Transport Desk := fun request desk =>
  if request.method = "GET" then
    (.ok (reply 200 (.arr ((pageAt request.url desk.comments).map shown))), desk)
  else
    match written? request with
    | none => (.ok (reply 422 (.obj [])), desk)
    | some body =>
      if request.method = "PATCH" then
        (.ok (reply 200 (.obj [])),
          { comments := editAt pr request.url body desk.comments
            distinct := by
              rw [map_id_editAt]
              exact desk.distinct
            short := by
              rw [map_id_editAt]
              exact desk.short })
      else if hshort : Numeral.isShort (nextId desk.comments) = true then
        (.ok (reply 201 (shown ⟨nextId desk.comments, body⟩)),
          ⟨add body desk.comments, nodup_add desk.distinct body, short_add desk.short hshort body⟩)
      else (.ok (reply 422 (.obj [])), desk)

/-- A client that talks to a desk. -/
def client (pr : PullRequest) : Client Desk where
  carry := carry pr
  token := "t"

/-- A pull request. -/
def samplePullRequest : PullRequest := ⟨some "owner/repo", some 1⟩

/-- A desk with one comment without a marker. -/
def sampleDesk : Desk := { comments := [⟨7, "looks good"⟩] }

/-! ### The laws -/

/-- The address of a path that ends in a number is the path at the code host. -/
theorem address?_client (pr : PullRequest) {path : String} {last : Char}
    (hlast : path.toList.getLast? = some last) (hdigit : last.isDigit = true) :
    (client pr).address? path = some (host ++ path) := by
  have hhost : Text.dropTrailing '/' host = host := by decide
  change Request.normalizeUrl? (Text.dropTrailing '/' host ++ path) = _
  rw [hhost]
  exact normalizeUrl?_host hlast hdigit

/-- The address of a page. -/
theorem address?_pagePath (pr : PullRequest) (perPage page : Int) :
    (client pr).address? (Client.pagePath pr perPage page) =
      some (host ++ Client.pagePath pr perPage page) := by
  obtain ⟨c, hlast, hdigit⟩ := exists_getLast?_pagePath pr perPage page
  exact address?_client pr hlast hdigit

/-- The address of a comment. -/
theorem address?_commentPath (pr : PullRequest) (id : Int) :
    (client pr).address? (pr.commentPath id) = some (host ++ pr.commentPath id) := by
  obtain ⟨c, hlast, hdigit⟩ := exists_getLast?_commentPath pr id
  exact address?_client pr hlast hdigit

/-- Distinct comments have distinct addresses. -/
theorem host_commentPath_inj (pr : PullRequest) {i j : Int} :
    host ++ pr.commentPath i = host ++ pr.commentPath j ↔ i = j := by
  refine ⟨fun h => ?_, fun h => by rw [h]⟩
  have hchars := congrArg String.toList h
  rw [String.toList_append, String.toList_append, commentPath_toList, commentPath_toList,
    List.append_cancel_left_eq, List.append_cancel_left_eq] at hchars
  exact Json.eq_of_intChars_eq hchars

/-- The page at the address of a page is a slice of the list. -/
theorem pageAt_pagePath (pr : PullRequest) (perPage page : Nat) (comments : List StoredComment) :
    pageAt (host ++ Client.pagePath pr perPage page) comments =
      (comments.drop ((page - 1) * perPage)).take perPage := by
  have hurl : (host ++ Client.pagePath pr perPage page).toList =
      ((host.toList ++ (pr.commentsPath.toList ++ "?per_page".toList)) ++
        '=' :: Nat.toDigits 10 perPage ++ "&page".toList) ++ '=' :: Nat.toDigits 10 page := by
    rw [String.toList_append, pagePath_toList, natChars_eq, natChars_eq]
    simp
  have hbefore (cs : List Char) :
      (cs ++ "&page".toList ++ ['=']).take
        ((cs ++ "&page".toList ++ ['=']).length - "&page=".length) = cs := by
    have hlength : "&page=".length = ("&page".toList ++ ['=']).length := by decide
    rw [List.append_assoc, hlength]
    exact List.take_left' (by rw [List.length_append, Nat.add_sub_cancel])
  rw [pageAt, hurl, trailingNumber_append (by decide)]
  dsimp only
  rw [hbefore, trailingNumber_append (by decide)]

/-- A value that is shown reads back. -/
theorem readable_shown (comments : List StoredComment) :
    Json.Readable (.arr (comments.map shown)) := by
  have hitems : Json.ReadableItems (comments.map shown) := by
    induction comments with
    | nil => trivial
    | cons c rest ih =>
      refine ⟨?_, ih⟩
      simp [shown, Json.Readable, Json.ReadableMembers]
  exact hitems

/-- There is room for it where the numbers are short. -/
theorem fits_shown {comments : List StoredComment}
    (h : ∀ id ∈ comments.map (·.id), Numeral.isShort id = true) {room : Nat} (hroom : 2 ≤ room) :
    Json.Fits room (.arr (comments.map shown)) := by
  refine ⟨by omega, Json.fitsItems_iff.2 ?_⟩
  rw [List.forall_mem_map] at h ⊢
  intro c hc
  exact ⟨by omega, h c hc, trivial, trivial⟩

/-- A page of short numbers has the value that it shows. -/
theorem value_page {comments : List StoredComment}
    (h : ∀ id ∈ comments.map (·.id), Numeral.isShort id = true) (pr : PullRequest)
    (perPage page : Nat) :
    (reply 200 (.arr ((pageAt (host ++ Client.pagePath pr perPage page) comments).map
        shown))).value =
      .ok (.arr (((comments.drop ((page - 1) * perPage)).take perPage).map shown)) := by
  rw [pageAt_pagePath]
  refine Reply.value_encode (readable_shown _) (fits_shown (fun id hid => h id ?_) (by decide)) 200
  obtain ⟨c, hc, rfl⟩ := List.mem_map.1 hid
  exact List.mem_map_of_mem (List.mem_of_mem_drop (List.mem_of_mem_take hc))

/-- What is shown of comments shows them. -/
theorem shows_shown (comments : List StoredComment) :
    List.Forall₂ Shows comments (comments.map shown) := by
  rw [List.forall₂_map_right_iff, List.forall₂_same]
  exact fun c _ => ⟨rfl, rfl⟩

/-- The body that a request carries is found in it. -/
theorem written?_of_carries {request : Request} {body : String} (h : request.Carries body) :
    written? request = some body := by
  obtain ⟨text, content, htext, hparse, hbody⟩ := h
  rw [written?, htext]
  simp only [Option.bind_eq_bind, Option.bind_some, hparse, hbody]
  rfl

/-- A page that is asked for is a slice of the comments, as they are shown. -/
theorem answers_page (pr : PullRequest) (desk : Desk) {request : Request} {perPage page : Nat}
    (hasks : (client pr).Asks "GET" (Client.pagePath pr perPage page) request) :
    (client pr).Answers request desk
      (.arr (((desk.comments.drop ((page - 1) * perPage)).take perPage).map shown)) desk := by
  obtain ⟨hmethod, haddress⟩ := hasks
  rw [address?_pagePath, Option.some.injEq] at haddress
  have hcarry : (client pr).carry request desk =
      (.ok (reply 200 (.arr ((pageAt request.url desk.comments).map shown))), desk) := by
    change carry pr request desk = _
    rw [carry, if_pos hmethod]
  rw [← haddress] at hcarry
  exact ⟨_, hcarry, rfl, value_page desk.short pr perPage page⟩

/-- **A desk is a faithful service** for a client that talks to it. -/
theorem faithful (pr : PullRequest) : Faithful (client pr) pr Desk.comments where
  reachable := by
    have hscheme : HasPlainScheme host.toList :=
      ⟨"https".toList, "//api.github.com".toList, by decide, by decide,
        List.all_eq_true.1 (by decide)⟩
    exact Client.address?_isSome hscheme
  lists := fun desk request perPage page _ _ hasks =>
    ⟨_, desk, answers_page pr desk hasks, rfl, rfl, shows_shown _⟩
  distinct := Desk.distinct
  edits := by
    rintro desk request id body ⟨hmethod, haddress⟩ hcarries -
    rw [address?_commentPath, Option.some.injEq] at haddress
    have hget : request.method ≠ "GET" := by
      rw [hmethod]
      decide
    have hcarry : ∃ h h', (client pr).carry request desk =
        (.ok (reply 200 (.obj [])), ⟨editAt pr request.url body desk.comments, h, h'⟩) := by
      change ∃ h h', carry pr request desk = _
      rw [carry, if_neg hget, written?_of_carries hcarries]
      dsimp only
      rw [if_pos hmethod]
      exact ⟨_, _, rfl⟩
    obtain ⟨_, _, hcarry⟩ := hcarry
    refine ⟨_, _, ⟨_, hcarry, rfl, rfl⟩, ?_⟩
    change editAt pr request.url body desk.comments = setBody id body desk.comments
    unfold editAt setBody
    simp only [← haddress, host_commentPath_inj]
  creates := by
    rintro desk request body hlength ⟨hmethod, -⟩ hcarries
    have hget : request.method ≠ "GET" := by
      rw [hmethod]
      decide
    have hpatch : request.method ≠ "PATCH" := by
      rw [hmethod]
      decide
    have hshort := isShort_nextId hlength
    have hcarry : ∃ h h', (client pr).carry request desk =
        (.ok (reply 201 (shown ⟨nextId desk.comments, body⟩)),
          ⟨add body desk.comments, h, h'⟩) := by
      change ∃ h h', carry pr request desk = _
      rw [carry, if_neg hget, written?_of_carries hcarries]
      dsimp only
      rw [if_neg hpatch, dif_pos hshort]
      exact ⟨_, _, rfl⟩
    obtain ⟨_, _, hcarry⟩ := hcarry
    have hread : Json.Readable (shown ⟨nextId desk.comments, body⟩) :=
      (readable_shown [⟨nextId desk.comments, body⟩]).1
    have hfit : Json.Fits Json.depthLimit (shown ⟨nextId desk.comments, body⟩) :=
      ⟨by decide, hshort, trivial, trivial⟩
    exact ⟨_, _, _, ⟨_, hcarry, rfl, Reply.value_encode hread hfit 201⟩, ⟨rfl, rfl⟩, rfl⟩

end Desk

end LintReport.GitHub
