import LintReport.Markdown.Link
import LintReport.Proofs.Json.Integer
import LintReport.Proofs.Text.Percent

/-!
# Links Name Their Files

An address is the address of the commit, the path in percent encoding, and a fragment for the line.
The encoded path holds no number sign, so the first one behind the address of the commit starts the
fragment, and what stands before it decodes to the path: no two places have one address. It holds no
bracket either, so a path stays inside the target of the link that is written around its address.

## Main definitions

* `RepoContext.base`: the address of a commit.
* `RepoContext.lineMark`: a mark and a line behind it, where there is a line to point at.
* `RepoContext.Identifies`: what an address and a link tell about a path and a line.

## Main results

* `RepoContext.blobUrl?_eq_none_iff`: which places have no address.
* `RepoContext.eq_of_blobUrl?_eq`: **no two places have one address**.
* `RepoContext.links_identify`: **links name their files**.
-/

namespace LintReport

/-! ### Visible marks -/

namespace Text

/-- Whether a character in the target of a link can end the target or start a fragment: brackets, a
backslash, the number sign, and whatever is not visible ASCII. -/
def breaksTarget (c : Char) : Bool :=
  "()<>\\#".toList.contains c || !(0x20 < c.toNat && c.toNat < 0x7F)

/-- A mark is in ASCII. -/
theorem toNat_lt_of_isPathMark {c : Char} (h : isPathMark c = true) : c.toNat < 128 := by
  have hmarks : ("_.-~/".toList.all fun d => decide (d.toNat < 128)) = true := by decide
  have hletters : 'Z'.toNat < 128 ∧ 'z'.toNat < 128 ∧ '9'.toNat < 128 := by decide
  rw [isPathMark, Bool.or_eq_true] at h
  rcases h with halpha | hother
  · have hclass : (c.isUpper || c.isLower || c.isDigit) = true := halpha
    rw [Bool.or_eq_true, Bool.or_eq_true] at hclass
    rcases hclass with (hupper | hlower) | hdigit
    · have hbounds : 'A'.val ≤ c.val ∧ c.val ≤ 'Z'.val := of_decide_eq_true hupper
      exact (UInt32.le_iff_toNat_le.1 hbounds.2).trans_lt hletters.1
    · exact (@toNat_between 'a' 'z' c hlower).2.trans_lt hletters.2.1
    · exact (@toNat_between '0' '9' c hdigit).2.trans_lt hletters.2.2
  · exact of_decide_eq_true (List.all_eq_true.1 hmarks c (List.contains_iff_mem.1 hother))

/-- Nothing in an encoded path ends the target of a link, or starts a fragment. -/
theorem breaksTarget_of_mem {cs : List Char} (h : PathForm cs) {c : Char} (hc : c ∈ cs) :
    breaksTarget c = false := by
  have hcodes : ∀ n < 128, isPathMark (Char.ofNat n) = true →
      breaksTarget (Char.ofNat n) = false := by
    decide +kernel
  rcases h.mem hc with hmark | rfl
  · have hcode := hcodes c.toNat (toNat_lt_of_isPathMark hmark)
    rw [Char.ofNat_toNat] at hcode
    exact hcode hmark
  · decide

/-- Two texts without a character, each followed by nothing or by something that starts with that
character, are told apart by what they are with it. -/
theorem append_inj_of_head {a : Char} {xs ys zs ws : List Char} (hxs : a ∉ xs) (hys : a ∉ ys)
    (hzs : ∀ c ∈ zs.head?, c = a) (hws : ∀ c ∈ ws.head?, c = a) (h : xs ++ zs = ys ++ ws) :
    xs = ys ∧ zs = ws := by
  have hcut {front back : List Char} (hfront : a ∉ front) (hback : ∀ c ∈ back.head?, c = a) :
      (front ++ back).takeWhile (· != a) = front := by
    have hkept : ∀ c ∈ front, (c != a) = true := by
      intro c hc
      rw [bne_iff_ne]
      exact ne_of_mem_of_not_mem hc hfront
    rw [List.takeWhile_append_of_pos hkept]
    cases back with
    | nil => rw [List.takeWhile_nil, List.append_nil]
    | cons c back =>
      obtain rfl := hback c rfl
      rw [List.takeWhile_cons_of_neg (by simp), List.append_nil]
  have hfront : xs = ys := by rw [← hcut hxs hzs, h, hcut hys hws]
  subst hfront
  exact ⟨rfl, List.append_cancel_left h⟩

end Text

namespace RepoContext

variable {context : RepoContext} {path path' url : String} {line line' : Option Int}

/-! ### Paths and lines -/

/-- A path is normalized by taking blanks and one `./` away from it. -/
theorem normalizePath_eq_iff {p : String} :
    normalizePath path = p ↔
      Text.trim path = "./" ++ p ∨ Text.trim path = p ∧ ¬ "./".toList <+: p.toList := by
  have hdot (rest : List Char) : String.ofList ('.' :: '/' :: rest) = "./" ++ String.ofList rest :=
    String.toList_inj.1 (by simp)
  rw [normalizePath, Text.trim]
  split
  · next rest htrim =>
    rw [htrim, hdot, String.append_right_inj, or_iff_left]
    rintro ⟨rfl, hnone⟩
    exact hnone (by simp)
  · next hnone =>
    constructor
    · rintro rfl
      refine .inr ⟨rfl, ?_⟩
      rintro ⟨rest, hrest⟩
      exact hnone rest (by simpa using hrest.symm)
    · rintro (hdotted | ⟨hself, -⟩)
      · refine absurd ?_ (hnone p.toList)
        simpa using congrArg String.toList hdotted
      · exact hself

/-- The blanks around a path do not count. -/
theorem normalizePath_trim (path : String) :
    normalizePath (Text.trim path) = normalizePath path := by
  rw [normalizePath, normalizePath, Text.trim, String.toList_ofList, Text.trimChars_trimChars]

/-- A mark and a line behind it, where there is a positive line. -/
def lineMark (mark : String) : Option Int → String
  | some n => if 0 < n then mark ++ toString n else ""
  | none => ""

/-- A line is marked exactly when it can be pointed at. -/
theorem lineMark_eq (mark : String) (line : Option Int) :
    lineMark mark line = match positiveLine? line with
      | some n => mark ++ toString n
      | none => "" := by
  cases line with
  | none => rfl
  | some n =>
    rw [lineMark, positiveLine?, Option.filter_some]
    by_cases hn : 0 < n
    · rw [if_pos hn, if_pos (decide_eq_true hn)]
    · rw [if_neg hn, if_neg (by simpa using hn)]

/-- A marked line starts with the mark. -/
theorem head?_lineMark {mark : String} {c : Char} (hmark : mark.toList.head? = some c)
    (line : Option Int) : ∀ d ∈ (lineMark mark line).toList.head?, d = c := by
  rw [lineMark_eq]
  cases positiveLine? line with
  | none => simp
  | some n =>
    intro d hd
    rw [String.toList_append, List.head?_append_of_ne_nil _ (by rintro h; simp [h] at hmark),
      hmark] at hd
    exact (Option.some.inj hd).symm

/-- **Lines that are marked alike are one line**, if they can be pointed at at all. -/
theorem lineMark_injective {mark : String} (hmark : mark ≠ "")
    (h : lineMark mark line = lineMark mark line') : positiveLine? line = positiveLine? line' := by
  rw [lineMark_eq, lineMark_eq] at h
  cases hline : positiveLine? line with
  | none =>
    cases hline' : positiveLine? line' with
    | none => rfl
    | some n =>
      rw [hline, hline'] at h
      exact absurd (String.append_eq_empty_iff.1 h.symm).1 hmark
  | some m =>
    cases hline' : positiveLine? line' with
    | none =>
      rw [hline, hline'] at h
      exact absurd (String.append_eq_empty_iff.1 h).1 hmark
    | some n =>
      rw [hline, hline'] at h
      have hdigits := congrArg String.toList ((String.append_right_inj _).1 h)
      rw [Json.eq_of_intChars_eq hdigits]

/-! ### Addresses -/

/-- The address of a commit, up to the path of a file. -/
def base (context : RepoContext) : String :=
  Text.dropTrailing '/' context.server ++ "/" ++ Text.trim context.repo ++ "/blob/" ++
    Text.trim context.sha ++ "/"

/-- Whether the commit of a context is known. -/
def IsKnown (context : RepoContext) : Prop :=
  Text.dropTrailing '/' context.server ≠ "" ∧ Text.trim context.repo ≠ "" ∧
    Text.trim context.sha ≠ ""

/-- **The parts of an address**, where the commit is known and there is a path. -/
theorem blobUrl?_eq_some (hcontext : context.IsKnown) (hpath : normalizePath path ≠ "")
    (line : Option Int) :
    context.blobUrl? path line =
      some (context.base ++ Text.percentEncode (normalizePath path) ++ lineMark "#L" line) := by
  obtain ⟨hserver, hrepo, hsha⟩ := hcontext
  have hall : ¬ ((Text.dropTrailing '/' context.server).isEmpty ||
      (Text.trim context.repo).isEmpty || (Text.trim context.sha).isEmpty ||
      (normalizePath path).isEmpty) = true := by
    simp [hserver, hrepo, hsha, hpath]
  rw [blobUrl?]
  dsimp only
  rw [if_neg hall, lineMark_eq]
  rfl

/-- **A place has no address** exactly when its path or a part of its context is empty. -/
theorem blobUrl?_eq_none_iff :
    context.blobUrl? path line = none ↔ ¬ context.IsKnown ∨ normalizePath path = "" := by
  by_cases hcontext : context.IsKnown
  · by_cases hpath : normalizePath path = ""
    · simp [blobUrl?, hpath]
    · simp [blobUrl?_eq_some hcontext hpath, hcontext, hpath]
  · have hempty := hcontext
    rw [IsKnown, not_and_or, not_and_or, not_not, not_not, not_not] at hempty
    have hnone : context.blobUrl? path line = none := by
      rcases hempty with h | h | h <;> simp [blobUrl?, h]
    simp [hnone, hcontext]

/-- What an address consists of. -/
theorem eq_of_blobUrl?_eq_some (h : context.blobUrl? path line = some url) :
    context.IsKnown ∧ normalizePath path ≠ "" ∧
      url = context.base ++ Text.percentEncode (normalizePath path) ++ lineMark "#L" line := by
  have hsome : ¬ (¬ context.IsKnown ∨ normalizePath path = "") := by
    rw [← @blobUrl?_eq_none_iff context path line, h]
    nofun
  rw [not_or, not_not] at hsome
  rw [blobUrl?_eq_some hsome.1 hsome.2, Option.some.injEq] at h
  exact ⟨hsome.1, hsome.2, h.symm⟩

/-- **No two places have one address.** -/
theorem eq_of_blobUrl?_eq (h : context.blobUrl? path line = some url)
    (h' : context.blobUrl? path' line' = some url) :
    normalizePath path = normalizePath path' ∧ positiveLine? line = positiveLine? line' := by
  obtain ⟨-, -, rfl⟩ := eq_of_blobUrl?_eq_some h
  obtain ⟨-, -, heq⟩ := eq_of_blobUrl?_eq_some h'
  rw [String.append_assoc, String.append_assoc, String.append_right_inj, ← String.toList_inj,
    String.toList_append, String.toList_append] at heq
  have hnone (s : String) : '#' ∉ (Text.percentEncode s).toList := by
    intro hmem
    have hbreaks := Text.breaksTarget_of_mem (Text.pathForm_percentEncode s) hmem
    exact absurd hbreaks (by decide)
  obtain ⟨hpath, hline⟩ := Text.append_inj_of_head (hnone _) (hnone _)
    (head?_lineMark (by decide) line) (head?_lineMark (by decide) line') heq
  exact ⟨Text.percentEncode_injective (String.toList_inj.1 hpath),
    lineMark_injective (by decide) (String.toList_inj.1 hline)⟩

/-! ### Links -/

/-- The path that a link shows. -/
def shownPath (path : String) : String := if Text.trim path = "" then "unknown" else Text.trim path

/-- **A link is written around the address** of its place, unless no path is known. -/
theorem locationLink_eq (context : RepoContext) (path : String) (line : Option Int) :
    context.locationLink path line =
      match if shownPath path = "unknown" then none else context.blobUrl? path line with
      | none => "`" ++ (shownPath path ++ lineMark ":" line) ++ "`"
      | some url => "[`" ++ (shownPath path ++ lineMark ":" line) ++ "`](" ++ url ++ ")" := by
  have hshown : (if (Text.trim path).isEmpty then "unknown" else Text.trim path) =
      shownPath path := by
    simp [shownPath]
  have hlabel : (match positiveLine? line with
      | some n => shownPath path ++ ":" ++ toString n
      | none => shownPath path) = shownPath path ++ lineMark ":" line := by
    rw [lineMark_eq]
    cases positiveLine? line with
    | none => rw [String.append_empty]
    | some n => exact String.append_assoc
  have haddress : (if (shownPath path == "unknown") = true then none
      else context.blobUrl? (shownPath path) line) =
      if shownPath path = "unknown" then none else context.blobUrl? path line := by
    by_cases hpath : shownPath path = "unknown"
    · rw [if_pos hpath, if_pos (by simpa using hpath)]
    · have htrim : shownPath path = Text.trim path := by
        rw [shownPath] at hpath ⊢
        split
        · next hempty => exact absurd (if_pos hempty) hpath
        · rfl
      rw [if_neg hpath, if_neg (by simpa using hpath), htrim, blobUrl?, blobUrl?,
        normalizePath_trim]
  cases hurl : if shownPath path = "unknown" then none else context.blobUrl? path line with
  | none =>
    rw [locationLink, hshown, haddress, hurl]
    exact congrArg (fun label => "`" ++ label ++ "`") hlabel
  | some url =>
    rw [locationLink, hshown, haddress, hurl]
    exact congrArg (fun label => "[`" ++ label ++ "`](" ++ url ++ ")") hlabel

/-- **What an address and a link tell** about a path and a line. -/
structure Identifies (context : RepoContext) (path : String) (line : Option Int) : Prop where
  /-- The path that counts is the trimmed one without one leading `./`. -/
  path_iff : ∀ p, normalizePath path = p ↔
    Text.trim path = "./" ++ p ∨ Text.trim path = p ∧ ¬ "./".toList <+: p.toList
  /-- There is no address exactly when one of the four parts is empty. -/
  none_iff : context.blobUrl? path line = none ↔
    normalizePath path = "" ∨ Text.trim context.repo = "" ∨ Text.trim context.sha = "" ∨
      Text.dropTrailing '/' context.server = ""
  /-- An address is made of the four parts and the line, and its path decodes to the path. -/
  decodes : ∀ url, context.blobUrl? path line = some url →
    ∃ encoded, url = Text.dropTrailing '/' context.server ++ "/" ++ Text.trim context.repo ++
        "/blob/" ++ Text.trim context.sha ++ "/" ++ encoded ++ lineMark "#L" line ∧
      Text.PathForm encoded.toList ∧ Text.percentDecode? encoded = some (normalizePath path)
  /-- The same address is that of the same path and the same line. -/
  unique : ∀ path' line' url, context.blobUrl? path line = some url →
    context.blobUrl? path' line' = some url →
      normalizePath path' = normalizePath path ∧
        (line'.filter fun n => 0 < n) = line.filter fun n => 0 < n
  /-- A link shows the path, with the line exactly when its address has it, and nothing in the path
  ends the target or starts a fragment. -/
  link :
    (shownPath path = "unknown" ∨ context.blobUrl? path line = none) ∧
        context.locationLink path line = "`" ++ (shownPath path ++ lineMark ":" line) ++ "`" ∨
      ∃ encoded, context.blobUrl? path line =
          some (context.base ++ encoded ++ lineMark "#L" line) ∧
        context.locationLink path line = "[`" ++ (shownPath path ++ lineMark ":" line) ++ "`](" ++
          (context.base ++ encoded ++ lineMark "#L" line) ++ ")" ∧
        Text.percentDecode? encoded = some (normalizePath path) ∧
        ∀ c ∈ encoded.toList, Text.breaksTarget c = false

/-- **Links name their files**, whatever characters are in their paths. -/
theorem links_identify (context : RepoContext) (path : String) (line : Option Int) :
    context.Identifies path line where
  path_iff _ := normalizePath_eq_iff
  none_iff := by
    rw [blobUrl?_eq_none_iff, IsKnown, not_and_or, not_and_or, not_not, not_not, not_not]
    exact or_comm.trans (or_congr_right or_rotate)
  decodes url h := by
    obtain ⟨-, -, rfl⟩ := eq_of_blobUrl?_eq_some h
    exact ⟨_, rfl, Text.pathForm_percentEncode _, Text.percentDecode?_percentEncode _⟩
  unique path' line' url h h' := eq_of_blobUrl?_eq h' h
  link := by
    rw [locationLink_eq]
    by_cases hshown : shownPath path = "unknown"
    · rw [if_pos hshown]
      exact .inl ⟨.inl hshown, rfl⟩
    · rw [if_neg hshown]
      cases haddress : context.blobUrl? path line with
      | none => exact .inl ⟨.inr rfl, rfl⟩
      | some url =>
        obtain ⟨-, -, rfl⟩ := eq_of_blobUrl?_eq_some haddress
        exact .inr ⟨_, rfl, rfl, Text.percentDecode?_percentEncode _,
          fun _ => Text.breaksTarget_of_mem (Text.pathForm_percentEncode _)⟩

/-- A path with marks that would end the target of a link or start a fragment. -/
example : RepoContext.locationLink ⟨"https://github.com/", "o/r", "abc"⟩ " ./a (1)#é.rs" (some 3) =
    "[`./a (1)#é.rs:3`](https://github.com/o/r/blob/abc/a%20%281%29%23%C3%A9.rs#L3)" := by
  decide +kernel

end RepoContext

end LintReport
