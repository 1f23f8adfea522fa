import LintReport.GitHub.Client
import LintReport.Proofs.Text.Blank

/-!
# Addresses of Requests

An address is trimmed and unwrapped before it is used, and it needs a scheme. A scheme of small
letters survives all of that, whatever follows it, so a client whose code host has such a scheme can
open every path.

## Main results

* `Request.normalizeUrl?_isSome`: **an address with a plain scheme can be opened**.
* `Request.normalizeUrl?_eq_self`: it is used as it stands if its last character is kept.
* `Client.address?_isSome`: so every path of such a code host has an address.
-/

namespace LintReport.GitHub

open Text (isBlank)

/-- Whether an address starts with a scheme of small letters. -/
def HasPlainScheme (url : List Char) : Prop :=
  ∃ scheme rest, url = scheme ++ ':' :: rest ∧ scheme ≠ [] ∧ ∀ c ∈ scheme, c.isLower = true

namespace Request

/-- Characters are only dropped at the end of what follows a character that is kept. -/
theorem dropEnd_append_cons {p : Char → Bool} {c : Char} (hc : p c = false)
    (pre rest : List Char) :
    Text.dropEnd p (pre ++ c :: rest) = pre ++ c :: Text.dropEnd p rest := by
  simp only [Text.dropEnd, List.reverse_append, List.reverse_cons, List.append_assoc]
  rw [List.dropWhile_append]
  split
  · next hnil =>
    rw [List.isEmpty_iff] at hnil
    rw [hnil, List.singleton_append, List.dropWhile_cons_of_neg (by simp [hc])]
    simp
  · simp

/-- A plain scheme survives the unwrapping of an address. -/
theorem unwrapUrl_eq {d : Char} {scheme rest : List Char} (hd : d.isLower = true) :
    unwrapUrl (d :: scheme ++ ':' :: rest) =
      d :: scheme ++ ':' :: Text.dropEnd isBlank rest := by
  have htrim : Text.trimChars (d :: scheme ++ ':' :: rest) =
      d :: scheme ++ ':' :: Text.dropEnd isBlank rest := by
    rw [Text.trimChars, Text.dropStart, List.cons_append,
      List.dropWhile_cons_of_neg (by simp [Text.isBlank_of_isLower hd]), ← List.cons_append]
    exact dropEnd_append_cons (by decide) _ _
  have hopen : ¬((some d == some '<') = true) := by
    simpa using Text.ne_of_test hd (by decide)
  have hprefix : ¬(['U', 'R', 'L', ':'].isPrefixOf
      (d :: (scheme ++ ':' :: Text.dropEnd isBlank rest)) = true) := by
    rw [List.isPrefixOf, Bool.and_eq_true, beq_iff_eq]
    exact fun h => Text.ne_of_test hd (by decide) h.1.symm
  rw [unwrapUrl, htrim]
  simp only [List.cons_append, List.head?_cons, Bool.and_eq_true, hopen, false_and, if_false,
    hprefix, Bool.false_eq_true]

/-- What stands before the fragment keeps everything before the last number sign. -/
theorem exists_beforeFragment {pre rest : List Char} (hpre : '#' ∈ pre → '#' ∈ rest) :
    ∃ more, beforeFragment (pre ++ rest) = pre ++ more := by
  rw [beforeFragment]
  split
  · next hmem =>
    have hrest : '#' ∈ rest := by
      rw [List.contains_iff_mem, List.mem_append] at hmem
      exact hmem.elim hpre id
    have hkept : (rest.reverse.dropWhile (· != '#')).isEmpty = false := by
      rw [Bool.eq_false_iff, ne_eq, List.isEmpty_iff, List.dropWhile_eq_nil_iff]
      intro hall
      simpa using hall '#' (List.mem_reverse.2 hrest)
    rw [List.reverse_append, List.dropWhile_append, hkept, if_neg Bool.false_ne_true]
    obtain ⟨c, cs, hcs⟩ := List.exists_cons_of_ne_nil (List.isEmpty_eq_false_iff.1 hkept)
    refine ⟨cs.reverse, ?_⟩
    rw [hcs, List.cons_append, List.drop_one, List.tail_cons, List.reverse_append,
      List.reverse_reverse]
  · exact ⟨rest, rfl⟩

/-- A plain scheme is a scheme. -/
theorem hasScheme_of_isLower {scheme : List Char} (hne : scheme ≠ [])
    (hlower : ∀ c ∈ scheme, c.isLower = true) (rest : List Char) :
    hasScheme (scheme ++ ':' :: rest) = true := by
  have htake : (scheme ++ ':' :: rest).takeWhile (fun c => c != ':' && c != '/') = scheme := by
    rw [List.takeWhile_append_of_pos, List.takeWhile_cons_of_neg (by decide), List.append_nil]
    intro c hc
    have hcolon := Text.ne_of_test (hlower c hc) (d := ':') (by decide)
    have hslash := Text.ne_of_test (hlower c hc) (d := '/') (by decide)
    simp [hcolon, hslash]
  rw [hasScheme, htake, List.drop_left]
  simpa using hne

/-- An address with a plain scheme is used without the blanks and the number sign at its end. -/
theorem normalizeUrl?_eq {url : String} {d : Char} {scheme rest : List Char}
    (hurl : url.toList = d :: scheme ++ ':' :: rest)
    (hlower : ∀ c ∈ d :: scheme, c.isLower = true) :
    normalizeUrl? url =
      let unwrapped := d :: scheme ++ ':' :: Text.dropEnd isBlank rest
      some (String.ofList (if unwrapped.getLast? == some '#' then unwrapped.dropLast
        else unwrapped)) := by
  have hmark : '#' ∉ d :: scheme ++ [':'] := by
    rw [List.mem_append, not_or]
    refine ⟨fun h => ?_, by decide⟩
    exact Text.ne_of_test (hlower '#' h) (by decide) rfl
  obtain ⟨more, hmore⟩ : ∃ more, beforeFragment
      (d :: scheme ++ [':'] ++ Text.dropEnd isBlank rest) = d :: scheme ++ [':'] ++ more :=
    exists_beforeFragment fun h => absurd h hmark
  rw [List.append_assoc, List.singleton_append, List.append_assoc, List.singleton_append] at hmore
  rw [normalizeUrl?, hurl, unwrapUrl_eq (hlower d List.mem_cons_self)]
  dsimp only
  rw [hmore, hasScheme_of_isLower (List.cons_ne_nil _ _) hlower, if_neg (by decide)]

/-- **An address with a plain scheme can be opened**, whatever follows the scheme. -/
theorem normalizeUrl?_isSome {url : String} (h : HasPlainScheme url.toList) :
    (normalizeUrl? url).isSome = true := by
  obtain ⟨scheme, rest, hurl, hne, hlower⟩ := h
  obtain ⟨d, scheme, rfl⟩ := List.exists_cons_of_ne_nil hne
  rw [normalizeUrl?_eq hurl hlower]
  rfl

/-- An address with a plain scheme is used as it stands if its last character is neither blank nor a
number sign. -/
theorem normalizeUrl?_eq_self {url : String} (h : HasPlainScheme url.toList) {last : Char}
    (hlast : url.toList.getLast? = some last) (hblank : isBlank last = false)
    (hmark : last ≠ '#') : normalizeUrl? url = some url := by
  obtain ⟨scheme, rest, hurl, hne, hlower⟩ := h
  obtain ⟨d, scheme, rfl⟩ := List.exists_cons_of_ne_nil hne
  have hkept : d :: scheme ++ ':' :: Text.dropEnd isBlank rest = url.toList := by
    rw [← dropEnd_append_cons (by decide), ← hurl, Text.dropEnd_eq_rdropWhile,
      List.rdropWhile_eq_self_iff]
    intro hnil
    rw [List.getLast?_eq_some_getLast hnil, Option.some.injEq] at hlast
    rw [hlast, hblank]
    exact Bool.false_ne_true
  rw [normalizeUrl?_eq hurl hlower]
  dsimp only
  rw [hkept, hlast, if_neg (by simpa using hmark), String.ofList_toList]

end Request

namespace Client

variable {σ : Type}

/-- The address of a path, if it can be opened. -/
def address? (client : Client σ) (path : String) : Option String :=
  Request.normalizeUrl? (Text.dropTrailing '/' client.apiUrl ++ path)

/-- A plain scheme of the code host stands before every path. -/
theorem hasPlainScheme_append {apiUrl : String} (h : HasPlainScheme apiUrl.toList)
    (path : String) : HasPlainScheme (Text.dropTrailing '/' apiUrl ++ path).toList := by
  obtain ⟨scheme, rest, hurl, hne, hlower⟩ := h
  refine ⟨scheme, Text.dropEnd (· == '/') rest ++ path.toList, ?_, hne, hlower⟩
  rw [String.toList_append, Text.dropTrailing, String.toList_ofList, hurl,
    Request.dropEnd_append_cons (by decide), List.append_assoc, List.cons_append]

/-- **Every path of a code host with a plain scheme has an address.** -/
theorem address?_isSome {client : Client σ} (h : HasPlainScheme client.apiUrl.toList)
    (path : String) : (client.address? path).isSome = true :=
  Request.normalizeUrl?_isSome (hasPlainScheme_append h path)

end Client

end LintReport.GitHub
