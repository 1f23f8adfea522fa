import LintReport.GitHub.Comments
import LintReport.Proofs.GitHub.Address
import LintReport.Proofs.Json.Layout

/-!
# Any Scheme

A code host has a scheme where its own address can be opened, whatever stands around that address:
blanks, brackets, the letters `URL:` or slashes at the end. A path behind such an address leaves
everything up to the first colon as it was, so the address of the path has a scheme as well. Only a
path that ends in a blank or a bracket could change what is unwrapped, and no path of comments ends
so.

## Main results

* `Request.normalizeUrl?_isSome_iff`: which addresses can be opened.
* `Request.StartsWithScheme.unwrapUrl_append`: **a scheme survives a path behind it**.
* `Client.pagePath_address`, `Client.commentsPath_address`, `Client.commentPath_address`: so all
  paths of comments have addresses.
* `Client.commentsPath_address_of_page`: **comments can be opened where a page of them can**, with
  whatever address the code host is known by.
-/

namespace LintReport.GitHub

open Text (isBlank)

namespace Request

/-- Whether characters start with a scheme that is kept without the fragment: a slash does not stand
in it, and the last number sign does not either. -/
def StartsWithScheme (cs : List Char) : Prop :=
  ∃ scheme rest, cs = scheme ++ ':' :: rest ∧ scheme ≠ [] ∧
    (∀ c ∈ scheme, c ≠ ':' ∧ c ≠ '/') ∧ ('#' ∈ scheme → '#' ∈ rest)

/-! ### Schemes -/

/-- A scheme is what stands before the first colon, if that is something without a slash. -/
theorem hasScheme_iff {cs : List Char} :
    hasScheme cs = true ↔ ∃ scheme rest, cs = scheme ++ ':' :: rest ∧ scheme ≠ [] ∧
      ∀ c ∈ scheme, c ≠ ':' ∧ c ≠ '/' := by
  constructor
  · intro h
    rw [hasScheme, Bool.and_eq_true, Bool.not_eq_true', List.isEmpty_eq_false_iff, beq_iff_eq,
      List.head?_eq_some_iff] at h
    obtain ⟨hne, rest, hrest⟩ := h
    refine ⟨_, rest, ?_, hne, fun c hc => ?_⟩
    · rw [← hrest]
      exact (List.prefix_iff_eq_append.1 (List.takeWhile_prefix _)).symm
    · simpa using List.mem_takeWhile_imp hc
  · rintro ⟨scheme, rest, rfl, hne, hscheme⟩
    have htake : (scheme ++ ':' :: rest).takeWhile (fun c => c != ':' && c != '/') = scheme := by
      rw [List.takeWhile_append_of_pos (by simpa using hscheme),
        List.takeWhile_cons_of_neg (by decide), List.append_nil]
    rw [hasScheme, htake, List.drop_left]
    simpa using hne

/-- What is dropped with the fragment is a number sign and what stands behind it. -/
theorem exists_fragment (cs : List Char) :
    '#' ∉ cs ∧ beforeFragment cs = cs ∨
      ∃ fragment, cs = beforeFragment cs ++ '#' :: fragment := by
  rw [beforeFragment]
  split
  · next hmem =>
    right
    rw [List.contains_iff_mem, ← List.mem_reverse] at hmem
    obtain ⟨d, ds, hdrop⟩ : ∃ d ds, cs.reverse.dropWhile (· != '#') = d :: ds := by
      rw [← List.ne_nil_iff_exists_cons, Ne, List.dropWhile_eq_nil_iff]
      intro hall
      simpa using hall '#' hmem
    have hd : d = '#' := by
      have hhead := List.head?_dropWhile_not (· != '#') cs.reverse
      rw [hdrop] at hhead
      simpa using hhead
    have hcs := congrArg List.reverse
      (List.takeWhile_append_dropWhile (p := (· != '#')) (l := cs.reverse))
    rw [hdrop, hd, List.reverse_append, List.reverse_cons, List.reverse_reverse, List.append_assoc,
      List.singleton_append] at hcs
    refine ⟨(cs.reverse.takeWhile (· != '#')).reverse, ?_⟩
    rw [hdrop, List.drop_one, List.tail_cons]
    exact hcs.symm
  · next hmem => exact .inl ⟨fun h => hmem (List.contains_iff_mem.2 h), rfl⟩

/-- A scheme is kept without the fragment exactly when the last number sign does not stand in it. -/
theorem hasScheme_beforeFragment_iff {cs : List Char} :
    hasScheme (beforeFragment cs) = true ↔ StartsWithScheme cs := by
  rw [hasScheme_iff]
  constructor
  · rintro ⟨scheme, rest, hbefore, hne, hscheme⟩
    rcases exists_fragment cs with ⟨hnone, hwhole⟩ | ⟨fragment, hcs⟩
    · rw [hwhole] at hbefore
      refine ⟨scheme, rest, hbefore, hne, hscheme, fun hmem => absurd ?_ hnone⟩
      rw [hbefore]
      exact List.mem_append_left _ hmem
    · rw [hbefore, List.append_assoc, List.cons_append] at hcs
      exact ⟨scheme, rest ++ '#' :: fragment, hcs, hne, hscheme,
        fun _ => List.mem_append_right _ List.mem_cons_self⟩
  · rintro ⟨scheme, rest, rfl, hne, hscheme, hmark⟩
    obtain ⟨more, hmore⟩ : ∃ more, beforeFragment (scheme ++ [':'] ++ rest) =
        scheme ++ [':'] ++ more := exists_beforeFragment (by simpa using hmark)
    rw [List.append_assoc, List.append_assoc] at hmore
    exact ⟨scheme, more, hmore, hne, hscheme⟩

/-- **Which addresses can be opened**: those that start with a scheme when they are unwrapped. -/
theorem normalizeUrl?_isSome_iff {url : String} :
    (normalizeUrl? url).isSome = true ↔ StartsWithScheme (unwrapUrl url.toList) := by
  rw [normalizeUrl?, ← hasScheme_beforeFragment_iff]
  cases hasScheme (beforeFragment (unwrapUrl url.toList)) <;> simp

namespace StartsWithScheme

variable {cs : List Char}

/-- Something behind an address leaves its scheme as it was. -/
theorem append (h : StartsWithScheme cs) (more : List Char) : StartsWithScheme (cs ++ more) := by
  obtain ⟨scheme, rest, rfl, hne, hscheme, hmark⟩ := h
  refine ⟨scheme, rest ++ more, by rw [List.append_assoc, List.cons_append], hne, hscheme,
    fun h => List.mem_append_left _ (hmark h)⟩

/-- Something before an address makes the scheme longer. -/
theorem prepend (h : StartsWithScheme cs) {before : List Char}
    (hbefore : ∀ c ∈ before, c ≠ ':' ∧ c ≠ '/' ∧ c ≠ '#') : StartsWithScheme (before ++ cs) := by
  obtain ⟨scheme, rest, rfl, hne, hscheme, hmark⟩ := h
  refine ⟨before ++ scheme, rest, by rw [List.append_assoc],
    List.append_ne_nil_of_right_ne_nil _ hne, ?_, ?_⟩
  · intro c hc
    rcases List.mem_append.1 hc with hc | hc
    · exact ⟨(hbefore c hc).1, (hbefore c hc).2.1⟩
    · exact hscheme c hc
  · intro hmem
    exact hmark ((List.mem_append.1 hmem).resolve_left fun h => (hbefore '#' h).2.2 rfl)

end StartsWithScheme

/-! ### Unwrapping -/

/-- No blank can end a scheme, and none is a number sign. -/
theorem ne_of_isBlank {c : Char} (hc : isBlank c = true) : c ≠ ':' ∧ c ≠ '/' ∧ c ≠ '#' :=
  ⟨Text.ne_of_test hc (by decide), Text.ne_of_test hc (by decide), Text.ne_of_test hc (by decide)⟩

/-- The letters that are taken away from an address are a scheme themselves. -/
theorem startsWithScheme_of_prefix {cs : List Char} (h : ['U', 'R', 'L', ':'] <+: cs) :
    StartsWithScheme cs := by
  obtain ⟨rest, rfl⟩ := h
  exact ⟨['U', 'R', 'L'], rest, rfl, by simp, by simp, by simp⟩

/-- An address in brackets starts with a scheme if what they hold does. -/
theorem startsWithScheme_of_brackets {cs : List Char}
    (hbrackets : (cs.head? == some '<' && cs.getLast? == some '>') = true)
    (h : StartsWithScheme (Text.trimChars (cs.drop 1).dropLast)) : StartsWithScheme cs := by
  rw [Bool.and_eq_true, beq_iff_eq, beq_iff_eq, List.head?_eq_some_iff] at hbrackets
  obtain ⟨⟨rest, rfl⟩, hlast⟩ := hbrackets
  obtain ⟨held, rfl⟩ : ∃ held, rest = held ++ ['>'] := by
    cases rest using List.reverseRecOn with
    | nil => cases hlast
    | append_singleton held last =>
      rw [← List.cons_append, List.getLast?_concat, Option.some.injEq] at hlast
      exact ⟨held, by rw [hlast]⟩
  rw [List.drop_one, List.tail_cons, List.dropLast_concat] at h
  obtain ⟨before, after, hheld, hbefore, -⟩ := Text.exists_trimChars held
  have hparts : '<' :: (held ++ ['>']) =
      '<' :: before ++ (Text.trimChars held ++ (after ++ ['>'])) := by
    conv_lhs => rw [hheld]
    simp only [List.append_assoc, List.cons_append]
  rw [hparts]
  refine (h.append _).prepend (List.forall_mem_cons.2 ⟨by decide, fun c hc => ?_⟩)
  exact ne_of_isBlank (hbefore c hc)

/-- An address that starts with a scheme when it is unwrapped does so when it is trimmed: what is
taken away besides is no end of a scheme, or is one itself. -/
theorem StartsWithScheme.of_unwrapUrl {cs : List Char} (h : StartsWithScheme (unwrapUrl cs)) :
    StartsWithScheme (Text.trimChars cs) := by
  rw [unwrapUrl] at h
  split at h
  · next hbrackets =>
    refine startsWithScheme_of_brackets hbrackets ?_
    split at h
    · next hprefix => exact startsWithScheme_of_prefix (List.isPrefixOf_iff_prefix.1 hprefix)
    · exact h
  · split at h
    · next hprefix => exact startsWithScheme_of_prefix (List.isPrefixOf_iff_prefix.1 hprefix)
    · exact h

/-- What stands up to a colon in a trimmed address stays there when slashes are dropped at the end
and a path is put behind it. -/
theorem exists_trimChars_append {cs path scheme rest : List Char} {last : Char}
    (hcs : Text.trimChars cs = scheme ++ ':' :: rest) (hne : scheme ≠ [])
    (hlast : path.getLast? = some last) (hblank : isBlank last = false) :
    ∃ after, (∀ c ∈ after, isBlank c = true) ∧
      Text.trimChars (Text.dropEnd (· == '/') cs ++ path) =
        scheme ++ ':' :: (Text.dropEnd (· == '/') (rest ++ after) ++ path) := by
  obtain ⟨before, after, hwhole, hbefore, hafter⟩ := Text.exists_trimChars cs
  obtain ⟨c, scheme, rfl⟩ := List.exists_cons_of_ne_nil hne
  rw [List.cons_append] at hcs
  have hkept : Text.dropEnd (· == '/') cs ++ path =
      before ++ c :: (scheme ++ ':' :: (Text.dropEnd (· == '/') (rest ++ after) ++ path)) := by
    have hparts : cs = before ++ c :: scheme ++ ':' :: (rest ++ after) := by
      rw [hwhole, hcs]
      simp only [List.append_assoc, List.cons_append]
    rw [hparts, dropEnd_append_cons (by decide)]
    simp only [List.append_assoc, List.cons_append]
  have hend : (c :: (scheme ++ ':' :: (Text.dropEnd (· == '/') (rest ++ after) ++ path))).getLast? =
      some last := by
    simp only [← List.cons_append, ← List.append_assoc]
    rw [List.getLast?_append, hlast, Option.some_or]
  refine ⟨after, hafter, ?_⟩
  rw [hkept, Text.trimChars_append_cons hbefore (Text.isBlank_of_trimChars_eq_cons hcs) hend hblank,
    List.cons_append]

/-- A character that is not dropped at the end stays. -/
theorem mem_dropEnd {p : Char → Bool} {c : Char} {cs : List Char} (hc : p c = false)
    (hmem : c ∈ cs) : c ∈ Text.dropEnd p cs := by
  obtain ⟨before, after, rfl⟩ := List.append_of_mem hmem
  rw [dropEnd_append_cons hc]
  exact List.mem_append_right _ List.mem_cons_self

/-- A trimmed address that starts with a scheme does so with a path behind it. -/
theorem startsWithScheme_trimChars_append {cs path : List Char}
    (h : StartsWithScheme (Text.trimChars cs)) {last : Char} (hlast : path.getLast? = some last)
    (hblank : isBlank last = false) :
    StartsWithScheme (Text.trimChars (Text.dropEnd (· == '/') cs ++ path)) := by
  obtain ⟨scheme, rest, hcs, hne, hscheme, hmark⟩ := h
  obtain ⟨after, -, htrim⟩ := exists_trimChars_append hcs hne hlast hblank
  refine ⟨scheme, _, htrim, hne, hscheme, fun hmem => ?_⟩
  exact List.mem_append_left _ (mem_dropEnd (by decide) (List.mem_append_left _ (hmark hmem)))

/-- An address that does not end in a bracket loses at most the letters in front. -/
theorem unwrapUrl_of_getLast? {cs : List Char} {last : Char}
    (hlast : (Text.trimChars cs).getLast? = some last) (hclose : last ≠ '>') :
    unwrapUrl cs = if ['U', 'R', 'L', ':'].isPrefixOf (Text.trimChars cs)
      then Text.trimChars ((Text.trimChars cs).drop 4) else Text.trimChars cs := by
  have hopen : ¬(((Text.trimChars cs).head? == some '<' &&
      (Text.trimChars cs).getLast? == some '>') = true) := by
    rw [hlast]
    simpa using fun _ => hclose
  rw [unwrapUrl, if_neg hopen]

/-- **A scheme survives a path behind it**, unless the path ends in a blank or a bracket. -/
theorem StartsWithScheme.unwrapUrl_append {cs path : List Char}
    (h : StartsWithScheme (unwrapUrl cs)) {last : Char} (hlast : path.getLast? = some last)
    (hblank : isBlank last = false) (hclose : last ≠ '>') :
    StartsWithScheme (unwrapUrl (Text.dropEnd (· == '/') cs ++ path)) := by
  have htrimmed := h.of_unwrapUrl
  obtain ⟨scheme, rest, hcs, hne, hscheme, -⟩ := id htrimmed
  obtain ⟨after, hafter, htrim⟩ := exists_trimChars_append hcs hne hlast hblank
  have hend : (Text.trimChars (Text.dropEnd (· == '/') cs ++ path)).getLast? = some last := by
    rw [htrim, ← List.cons_append, ← List.append_assoc, List.getLast?_append, hlast, Option.some_or]
  rw [unwrapUrl_of_getLast? hend hclose]
  split
  · next hprefix =>
    -- the scheme is made of the letters that are taken away, and was so before
    have hletters : scheme = ['U', 'R', 'L'] := by
      rw [List.isPrefixOf_iff_prefix, htrim] at hprefix
      obtain ⟨more, hmore⟩ := hprefix
      have hfirst (cs : List Char) {rest : List Char} (h : ∀ c ∈ cs, c ≠ ':') :
          (cs ++ ':' :: rest).takeWhile (· != ':') = cs := by
        rw [List.takeWhile_append_of_pos (by simpa using h), List.takeWhile_cons_of_neg (by decide),
          List.append_nil]
      rw [← hfirst scheme fun c hc => (hscheme c hc).1, ← hmore]
      exact hfirst ['U', 'R', 'L'] (by simp)
    subst hletters
    rw [unwrapUrl, hcs] at h
    have hrest : StartsWithScheme (Text.trimChars rest) := h
    rw [← Text.trimChars_append_blanks hafter rest] at hrest
    rw [htrim]
    exact startsWithScheme_trimChars_append hrest hlast hblank
  · exact startsWithScheme_trimChars_append htrimmed hlast hblank

/-! ### Paths that are opened together -/

/-- A part without slashes in front of an address with a path stands in front of the address. -/
theorem prefix_append_path_iff {part kept path : List Char} (hpart : '/' ∉ part) :
    part <+: kept ++ '/' :: path ↔ part <+: kept := by
  refine ⟨fun h => ?_, fun h => h.trans (List.prefix_append kept _)⟩
  rcases List.prefix_or_prefix_of_prefix h (List.prefix_append kept _) with hkept | ⟨more, rfl⟩
  · exact hkept
  · rw [List.prefix_append_right_inj] at h
    cases more with
    | nil => rw [List.append_nil]
    | cons c more =>
      obtain rfl : c = '/' := (List.cons_prefix_cons.1 h).1
      exact absurd (List.mem_append_right kept List.mem_cons_self) hpart

/-- Trimming an address with a path behind it takes away blanks in front. -/
theorem trimChars_append_path (base : List Char) {path : List Char} {last : Char}
    (hlast : ('/' :: path).getLast? = some last) (hblank : isBlank last = false) :
    Text.trimChars (base ++ '/' :: path) = base.dropWhile isBlank ++ '/' :: path := by
  have hbefore : ∀ c ∈ base.takeWhile isBlank, isBlank c = true := fun _ => List.mem_takeWhile_imp
  conv_lhs => rw [← List.takeWhile_append_dropWhile (p := isBlank) (l := base), List.append_assoc]
  cases hkept : base.dropWhile isBlank with
  | nil => exact Text.trimChars_append_cons hbefore (by decide) hlast hblank
  | cons c rest =>
    have hc : isBlank c = false := by
      have hhead := List.head?_dropWhile_not isBlank base
      rw [hkept] at hhead
      simpa using hhead
    have hend : (c :: (rest ++ '/' :: path)).getLast? = some last := by
      rw [← List.cons_append, List.getLast?_append, hlast, Option.some_or]
    exact Text.trimChars_append_cons hbefore hc hend hblank

/-- What is unwrapped from an address with a path does not depend on the path. -/
theorem exists_unwrapUrl_append (base : List Char) :
    ∃ kept, ∀ (path : List Char) (last : Char), ('/' :: path).getLast? = some last →
      isBlank last = false → last ≠ '>' →
      unwrapUrl (base ++ '/' :: path) = kept ++ '/' :: path := by
  have hend {kept path : List Char} {last : Char} (hlast : ('/' :: path).getLast? = some last) :
      (kept ++ '/' :: path).getLast? = some last := by
    rw [List.getLast?_append, hlast, Option.some_or]
  have hletters : '/' ∉ ['U', 'R', 'L', ':'] := by decide
  by_cases hprefix : ['U', 'R', 'L', ':'] <+: base.dropWhile isBlank
  · obtain ⟨rest, hrest⟩ := id hprefix
    refine ⟨rest.dropWhile isBlank, fun path last hlast hblank hclose => ?_⟩
    have htrim := trimChars_append_path base hlast hblank
    rw [unwrapUrl_of_getLast? (by rw [htrim]; exact hend hlast) hclose, htrim,
      if_pos (List.isPrefixOf_iff_prefix.2 ((prefix_append_path_iff hletters).2 hprefix)), ← hrest,
      ← trimChars_append_path rest hlast hblank]
    rfl
  · refine ⟨base.dropWhile isBlank, fun path last hlast hblank hclose => ?_⟩
    have htrim := trimChars_append_path base hlast hblank
    rw [unwrapUrl_of_getLast? (by rw [htrim]; exact hend hlast) hclose, htrim, if_neg]
    rwa [List.isPrefixOf_iff_prefix, prefix_append_path_iff hletters]

/-- A scheme in front of a path stands in front of every path that holds a number sign where that
one does. -/
theorem StartsWithScheme.of_path {kept path path' : List Char}
    (hmarks : '#' ∈ path → '#' ∈ path') (h : StartsWithScheme (kept ++ '/' :: path)) :
    StartsWithScheme (kept ++ '/' :: path') := by
  obtain ⟨scheme, rest, hsplit, hne, hscheme, hmark⟩ := h
  have hcolon : scheme ++ [':'] <+: kept ++ '/' :: path := by
    rw [hsplit]
    exact ⟨rest, by simp⟩
  have hslash : '/' ∉ scheme ++ [':'] := by
    rw [List.mem_append, not_or]
    exact ⟨fun h => (hscheme '/' h).2 rfl, by decide⟩
  obtain ⟨more, rfl⟩ := (prefix_append_path_iff hslash).1 hcolon
  refine ⟨scheme, more ++ '/' :: path', by simp, hne, hscheme, fun hmem => ?_⟩
  have hrest : rest = more ++ '/' :: path := by simpa using hsplit.symm
  have hfound := hmark hmem
  rw [hrest, List.mem_append, List.mem_cons] at hfound
  rw [List.mem_append, List.mem_cons]
  exact hfound.imp_right (Or.imp_right hmarks)

end Request

/-! ### Paths of comments -/

/-- The characters of an integer end in a digit. -/
theorem exists_getLast?_intChars (i : Int) (before : List Char) :
    ∃ c, (before ++ (toString i).toList).getLast? = some c ∧ c.isDigit = true := by
  obtain ⟨most, last, hlast⟩ : ∃ most last, Nat.toDigits 10 i.natAbs = most ++ [last] :=
    ⟨_, _, (List.dropLast_concat_getLast (Nat.toDigits_ne_nil)).symm⟩
  refine ⟨last, ?_, Json.isDigit_of_mem_digits (n := i.natAbs) (by simp [hlast])⟩
  rw [Json.intChars_eq, hlast]
  split
  · rw [← List.cons_append, ← List.append_assoc, List.getLast?_concat]
  · rw [← List.append_assoc, List.getLast?_concat]

/-- The characters of the path of a page. -/
theorem pagePath_toList (pr : PullRequest) (perPage page : Int) :
    (Client.pagePath pr perPage page).toList =
      (pr.commentsPath.toList ++ "?per_page".toList) ++ '=' :: (toString perPage).toList ++
        "&page".toList ++ '=' :: (toString page).toList := by
  rw [Client.pagePath]
  simp only [String.toList_append, List.append_assoc]
  rfl

/-- The characters of the path of a comment. -/
theorem commentPath_toList (pr : PullRequest) (id : Int) :
    (pr.commentPath id).toList =
      (pr.issuesPath.toList ++ "/comments/".toList) ++ (toString id).toList := by
  rw [PullRequest.commentPath]
  simp only [String.toList_append, List.append_assoc]
  rfl

/-- Whether a path starts with a slash and ends in neither a blank nor a bracket. -/
def IsEnclosed (path : String) : Prop :=
  ∃ rest last, path.toList = '/' :: rest ∧ path.toList.getLast? = some last ∧
    isBlank last = false ∧ last ≠ '>'

/-- All paths of issues start with a slash. -/
theorem exists_issuesPath (pr : PullRequest) (more : List Char) :
    ∃ rest, pr.issuesPath.toList ++ more = '/' :: rest := by
  rw [PullRequest.issuesPath]
  simp only [String.toList_append, List.append_assoc]
  exact ⟨_, rfl⟩

/-- The path of the comments ends in a letter. -/
theorem getLast?_commentsPath (pr : PullRequest) : pr.commentsPath.toList.getLast? = some 's' := by
  rw [PullRequest.commentsPath, String.toList_append, List.getLast?_append]
  rfl

/-- The path of a page ends in a digit. -/
theorem exists_getLast?_pagePath (pr : PullRequest) (perPage page : Int) :
    ∃ c, (Client.pagePath pr perPage page).toList.getLast? = some c ∧ c.isDigit = true := by
  obtain ⟨c, hlast, hdigit⟩ := exists_getLast?_intChars page
    ((pr.commentsPath.toList ++ "?per_page".toList) ++ '=' :: (toString perPage).toList ++
      "&page=".toList)
  refine ⟨c, ?_, hdigit⟩
  rw [pagePath_toList, ← hlast]
  simp

/-- The path of a comment ends in a digit. -/
theorem exists_getLast?_commentPath (pr : PullRequest) (id : Int) :
    ∃ c, (pr.commentPath id).toList.getLast? = some c ∧ c.isDigit = true := by
  rw [commentPath_toList]
  exact exists_getLast?_intChars id _

/-- A number sign in the path of a page stands in the name of the repository. -/
theorem mem_issuesPath_of_mem_pagePath {pr : PullRequest} {perPage page : Int}
    (h : '#' ∈ (Client.pagePath pr perPage page).toList) : '#' ∈ pr.issuesPath.toList := by
  have hnumber (i : Int) : '#' ∉ (toString i).toList := fun hmem =>
    Json.ne_of_signOrDigit (Json.signOrDigit_of_mem_intChars hmem) (by decide) rfl
  have hpull : '#' ∉ (Text.orEmptyList (pr.number.map toString)).toList := by
    cases pr.number with
    | none => decide
    | some i => exact hnumber i
  have hfixed : '#' ∉ "/".toList ∧ '#' ∉ "/comments".toList ∧ '#' ∉ "?per_page".toList ∧
      '#' ∉ "&page".toList ∧ '#' ≠ '=' := by
    decide
  obtain ⟨hslash, hcomments, hquery, hand, hequals⟩ := hfixed
  rw [pagePath_toList, PullRequest.commentsPath] at h
  simpa only [String.toList_append, List.mem_append, List.mem_cons, hslash, hcomments, hquery, hand,
    hequals, hpull, hnumber, or_false] using h

/-- The path of a page is enclosed. -/
theorem isEnclosed_pagePath (pr : PullRequest) (perPage page : Int) :
    IsEnclosed (Client.pagePath pr perPage page) := by
  obtain ⟨last, hlast, hdigit⟩ := exists_getLast?_pagePath pr perPage page
  obtain ⟨rest, hrest⟩ : ∃ rest, (Client.pagePath pr perPage page).toList = '/' :: rest := by
    rw [Client.pagePath, PullRequest.commentsPath]
    simp only [String.toList_append, List.append_assoc]
    exact exists_issuesPath pr _
  exact ⟨rest, last, hrest, hlast, Text.isBlank_of_isDigit hdigit,
    Text.ne_of_test hdigit (by decide)⟩

/-- The path of a comment is enclosed. -/
theorem isEnclosed_commentPath (pr : PullRequest) (id : Int) : IsEnclosed (pr.commentPath id) := by
  obtain ⟨last, hlast, hdigit⟩ := exists_getLast?_commentPath pr id
  obtain ⟨rest, hrest⟩ : ∃ rest, (pr.commentPath id).toList = '/' :: rest := by
    rw [commentPath_toList, List.append_assoc]
    exact exists_issuesPath pr _
  exact ⟨rest, last, hrest, hlast, Text.isBlank_of_isDigit hdigit,
    Text.ne_of_test hdigit (by decide)⟩

/-- The path of the comments is enclosed. -/
theorem isEnclosed_commentsPath (pr : PullRequest) : IsEnclosed pr.commentsPath := by
  obtain ⟨rest, hrest⟩ : ∃ rest, pr.commentsPath.toList = '/' :: rest := by
    rw [PullRequest.commentsPath]
    simp only [String.toList_append, List.append_assoc]
    exact exists_issuesPath pr _
  exact ⟨rest, 's', hrest, getLast?_commentsPath pr, by decide, by decide⟩

namespace Client

variable {σ : Type} {client : Client σ}

/-- **A path of a code host with a scheme has an address.** -/
theorem address?_isSome_of_isEnclosed
    (hscheme : (Request.normalizeUrl? client.apiUrl).isSome = true) {path : String}
    (hpath : IsEnclosed path) : (client.address? path).isSome = true := by
  obtain ⟨rest, last, -, hlast, hblank, hclose⟩ := hpath
  rw [Request.normalizeUrl?_isSome_iff] at hscheme
  rw [address?, Request.normalizeUrl?_isSome_iff, String.toList_append, Text.dropTrailing,
    String.toList_ofList]
  exact hscheme.unwrapUrl_append hlast hblank hclose

/-- A path can be opened where another one can, unless the other one alone holds number signs. -/
theorem address?_isSome_of_path {path path' : String} (hpath : IsEnclosed path)
    (hpath' : IsEnclosed path') (hmarks : '#' ∈ path.toList → '#' ∈ path'.toList)
    (h : (client.address? path).isSome = true) : (client.address? path').isSome = true := by
  obtain ⟨rest, last, hslash, hlast, hblank, hclose⟩ := hpath
  obtain ⟨rest', last', hslash', hlast', hblank', hclose'⟩ := hpath'
  obtain ⟨kept, hkept⟩ :=
    Request.exists_unwrapUrl_append (Text.dropTrailing '/' client.apiUrl).toList
  rw [hslash] at hlast hmarks
  rw [hslash'] at hlast' hmarks
  rw [address?, Request.normalizeUrl?_isSome_iff, String.toList_append] at h ⊢
  rw [hslash, hkept rest last hlast hblank hclose] at h
  rw [hslash', hkept rest' last' hlast' hblank' hclose']
  refine h.of_path fun hmem => ?_
  simpa using hmarks (List.mem_cons_of_mem '/' hmem)

/-- **Where a page of comments can be opened, so can the comments**: what a page adds to the path
holds no number sign. -/
theorem commentsPath_address_of_page {pr : PullRequest} {perPage page : Int}
    (h : (client.address? (pagePath pr perPage page)).isSome = true) :
    (client.address? pr.commentsPath).isSome = true ∧
      ∀ id, (client.address? (pr.commentPath id)).isSome = true := by
  have hpage := isEnclosed_pagePath pr perPage page
  refine ⟨address?_isSome_of_path hpage (isEnclosed_commentsPath pr) (fun hmem => ?_) h,
    fun id => address?_isSome_of_path hpage (isEnclosed_commentPath pr id) (fun hmem => ?_) h⟩
  · rw [PullRequest.commentsPath]
    simp only [String.toList_append, List.mem_append, mem_issuesPath_of_mem_pagePath hmem, true_or]
  · rw [commentPath_toList]
    simp only [List.mem_append, mem_issuesPath_of_mem_pagePath hmem, true_or]

variable (hscheme : (Request.normalizeUrl? client.apiUrl).isSome = true) (pr : PullRequest)

include hscheme

/-- A page of comments has an address. -/
theorem pagePath_address (perPage page : Int) :
    (client.address? (pagePath pr perPage page)).isSome = true :=
  address?_isSome_of_isEnclosed hscheme (isEnclosed_pagePath pr perPage page)

/-- A comment has an address. -/
theorem commentPath_address (id : Int) : (client.address? (pr.commentPath id)).isSome = true :=
  address?_isSome_of_isEnclosed hscheme (isEnclosed_commentPath pr id)

/-- The comments of a pull request have an address. -/
theorem commentsPath_address : (client.address? pr.commentsPath).isSome = true :=
  address?_isSome_of_isEnclosed hscheme (isEnclosed_commentsPath pr)

end Client

end LintReport.GitHub
