import LintReport.Proofs.GitHub.Scheme

/-!
# Any Path

A path can end in a bracket or in blanks, and then more may be taken away in front of its address
than in front of the address of the code host. The scheme that counts is therefore the one behind
everything that can be taken away: the blanks, a bracket, and the letters `URL:`. It ends in a
colon, or in the number sign that it needs, and unwrapping never takes away what stands before such
a mark, since no blank, slash or bracket is one.

## Main definitions

* `Request.bare`: an address without all that can be taken away in front of it.
* `Request.OpensWithScheme`: whether what is left starts with a scheme.

## Main results

* `Request.StartsWithScheme.unwrapUrl_of_bare`: **unwrapping keeps such a scheme**, whatever follows
  it.
* `Request.startsWithScheme_bare_append`: a scheme of any other kind is spoiled by a bracket.
* `Client.opensWithScheme_iff`: **the code hosts with such a scheme are those with an address for
  every path**.
-/

namespace LintReport.GitHub

open Text (isBlank)

namespace Request

/-- An address without the letters `URL:` in front, and the blanks behind them. -/
def withoutLetters (url : List Char) : List Char :=
  if ['U', 'R', 'L', ':'].isPrefixOf url then (url.drop 4).dropWhile isBlank else url

/-- An address without the letters `URL:` in front, and trimmed behind them. -/
def trimLetters (url : List Char) : List Char :=
  if ['U', 'R', 'L', ':'].isPrefixOf url then Text.trimChars (url.drop 4) else url

/-- An address without all that can be taken away in front of it: blanks, a bracket, and letters. -/
def bare (url : List Char) : List Char :=
  let url := url.dropWhile isBlank
  withoutLetters (if url.head? == some '<' then (url.drop 1).dropWhile isBlank else url)

/-- Whether an address has a scheme that no path behind it can spoil. -/
def OpensWithScheme (url : String) : Prop := StartsWithScheme (bare url.toList)

/-! ### Marks -/

/-- Whether characters end in a colon or a number sign. -/
def EndsInMark (cs : List Char) : Prop :=
  ∃ before last, cs = before ++ [last] ∧ (last = ':' ∨ last = '#')

namespace EndsInMark

variable {cs : List Char} (h : EndsInMark cs)

include h

/-- What ends in a mark is something. -/
theorem ne_nil : cs ≠ [] := by
  obtain ⟨before, last, rfl, -⟩ := h
  exact List.append_ne_nil_of_right_ne_nil _ (List.cons_ne_nil _ _)

/-- No blank is a mark, so the blanks in front end before it. -/
theorem dropWhile_append (more : List Char) :
    (cs ++ more).dropWhile isBlank = cs.dropWhile isBlank ++ more ∧
      EndsInMark (cs.dropWhile isBlank) := by
  obtain ⟨before, last, rfl, hlast⟩ := h
  have hblank : isBlank last = false := by
    rcases hlast with rfl | rfl <;> decide
  have hkept (rest : List Char) :
      (before ++ last :: rest).dropWhile isBlank = before.dropWhile isBlank ++ last :: rest := by
    rw [List.dropWhile_append, List.dropWhile_cons_of_neg (by simp [hblank])]
    split
    · next hnil => rw [List.isEmpty_iff.1 hnil, List.nil_append]
    · rfl
  rw [List.append_assoc, List.singleton_append, hkept, hkept]
  exact ⟨by rw [List.append_assoc, List.singleton_append], _, last, rfl, hlast⟩

/-- What stands up to a mark is kept when other characters are dropped at the end. -/
theorem exists_dropEnd {p : Char → Bool} (hcolon : p ':' = false) (hnumber : p '#' = false)
    (more : List Char) : ∃ more', Text.dropEnd p (cs ++ more) = cs ++ more' := by
  obtain ⟨before, last, rfl, hlast⟩ := h
  have hkept : p last = false := by
    rcases hlast with rfl | rfl <;> assumption
  refine ⟨Text.dropEnd p more, ?_⟩
  rw [List.append_assoc, List.singleton_append, dropEnd_append_cons hkept, List.append_assoc,
    List.singleton_append]

/-- What stands up to a mark only loses the blanks in front when it is trimmed. -/
theorem exists_trimChars (more : List Char) :
    ∃ more', Text.trimChars (cs ++ more) = cs.dropWhile isBlank ++ more' := by
  obtain ⟨hstart, hmark⟩ := h.dropWhile_append more
  rw [Text.trimChars, Text.dropStart, hstart]
  exact hmark.exists_dropEnd (by decide) (by decide) more

/-- A bracket that closes stands behind a mark. -/
theorem exists_of_getLast? {more : List Char} (hclose : (cs ++ more).getLast? = some '>') :
    ∃ more', more = more' ++ ['>'] := by
  cases more using List.reverseRecOn with
  | nil =>
    obtain ⟨before, last, rfl, hlast⟩ := h
    rw [List.append_nil, List.getLast?_concat, Option.some.injEq] at hclose
    rw [hclose] at hlast
    exact absurd hlast (by decide)
  | append_singleton more last =>
    rw [← List.append_assoc, List.getLast?_concat, Option.some.injEq] at hclose
    exact ⟨more, by rw [hclose]⟩

/-- The letters in front do not reach behind a mark. -/
theorem letters_prefix_iff (more : List Char) :
    ['U', 'R', 'L', ':'] <+: cs ++ more ↔ ['U', 'R', 'L', ':'] <+: cs := by
  refine ⟨fun hletters => ?_, fun hletters => hletters.trans (List.prefix_append _ _)⟩
  rcases List.prefix_or_prefix_of_prefix hletters (List.prefix_append cs more) with hcs | hcs
  · exact hcs
  · -- of the letters only the last one is a mark
    obtain ⟨before, last, rfl, hlast⟩ := h
    obtain ⟨rest, hrest⟩ := id hcs
    cases rest using List.reverseRecOn with
    | nil => rw [← hrest, List.append_nil]
    | append_singleton rest final =>
      rw [← List.append_assoc] at hrest
      have hmost : before ++ [last] ++ rest = ['U', 'R', 'L'] :=
        (List.append_inj' (show _ = ['U', 'R', 'L'] ++ [':'] from hrest) rfl).1
      have hmem : last ∈ ['U', 'R', 'L'] := by
        rw [← hmost]
        simp
      rcases hlast with rfl | rfl <;> exact absurd hmem (by decide)

end EndsInMark

/-- What stands behind characters that are no mark ends in one if all of it does. -/
theorem EndsInMark.of_append {before cs : List Char} (h : EndsInMark (before ++ cs))
    (hne : cs ≠ []) : EndsInMark cs := by
  obtain ⟨most, last, hparts, hlast⟩ := h
  obtain ⟨rest, final, rfl⟩ := List.eq_nil_or_concat cs |>.resolve_left hne
  rw [List.concat_eq_append, ← List.append_assoc] at hparts
  obtain ⟨-, hfinal⟩ := List.append_inj' hparts rfl
  rw [List.singleton_inj] at hfinal
  exact ⟨rest, final, by rw [List.concat_eq_append], hfinal ▸ hlast⟩

/-- A bracket is no mark. -/
theorem EndsInMark.of_bracket {cs : List Char} (h : EndsInMark ('<' :: cs)) : EndsInMark cs := by
  refine @EndsInMark.of_append ['<'] cs h ?_
  rintro rfl
  obtain ⟨before, last, hparts, hlast⟩ := h
  obtain ⟨-, hopen⟩ := List.append_inj' (show [] ++ ['<'] = before ++ [last] from hparts) rfl
  rw [← List.singleton_inj.1 hopen] at hlast
  exact absurd hlast (by decide)

/-- What starts with a scheme is something. -/
theorem StartsWithScheme.ne_nil {cs : List Char} (h : StartsWithScheme cs) : cs ≠ [] := by
  obtain ⟨scheme, rest, rfl, -⟩ := h
  exact List.append_ne_nil_of_right_ne_nil _ (List.cons_ne_nil _ _)

/-- What makes a scheme ends in a mark. -/
theorem StartsWithScheme.exists_endsInMark {cs : List Char} (h : StartsWithScheme cs) :
    ∃ core more, cs = core ++ more ∧ StartsWithScheme core ∧ EndsInMark core := by
  obtain ⟨scheme, rest, rfl, hne, hscheme, hmark⟩ := h
  by_cases hmem : '#' ∈ scheme
  · obtain ⟨before, after, rfl⟩ := List.append_of_mem (hmark hmem)
    refine ⟨scheme ++ ':' :: (before ++ ['#']), after, by simp,
      ⟨scheme, before ++ ['#'], rfl, hne, hscheme, fun _ => by simp⟩,
      scheme ++ ':' :: before, '#', by simp, .inr rfl⟩
  · exact ⟨scheme ++ [':'], rest, by simp, ⟨scheme, [], rfl, hne, hscheme, fun h => absurd h hmem⟩,
      scheme, ':', rfl, .inl rfl⟩

/-! ### What is taken away in front -/

section Shapes

variable {cs rest : List Char} {c : Char}

/-- An address between brackets is what they hold. -/
theorem unwrapUrl_of_brackets (h : Text.trimChars cs = '<' :: (rest ++ ['>'])) :
    unwrapUrl cs = trimLetters (Text.trimChars rest) := by
  have hend : (('<' :: (rest ++ ['>'])).getLast? == some '>') = true := by
    rw [← List.cons_append, List.getLast?_concat]
    rfl
  simp only [unwrapUrl, h, hend, List.head?_cons, beq_self_eq_true, Bool.and_self, if_true,
    List.drop_one, List.tail_cons, List.dropLast_concat, trimLetters]

/-- An address that no bracket opens is trimmed. -/
theorem unwrapUrl_of_head (h : Text.trimChars cs = c :: rest) (hc : c ≠ '<') :
    unwrapUrl cs = trimLetters (c :: rest) := by
  have hhead : (some c == some '<') = false := by simpa using hc
  simp only [unwrapUrl, h, List.head?_cons, hhead, Bool.false_and, Bool.false_eq_true, if_false,
    trimLetters]

/-- An address that no bracket closes is trimmed. -/
theorem unwrapUrl_of_end (h : (Text.trimChars cs).getLast? ≠ some '>') :
    unwrapUrl cs = trimLetters (Text.trimChars cs) := by
  have hend : ((Text.trimChars cs).getLast? == some '>') = false := by simpa using h
  simp only [unwrapUrl, hend, Bool.and_false, Bool.false_eq_true, if_false, trimLetters]

/-- A bracket in front is taken away with the blanks around it. -/
theorem bare_of_bracket (h : cs.dropWhile isBlank = '<' :: rest) :
    bare cs = withoutLetters (rest.dropWhile isBlank) := by
  simp only [bare, h, List.head?_cons, beq_self_eq_true, if_true, List.drop_one, List.tail_cons]

/-- Without a bracket the blanks in front are taken away. -/
theorem bare_of_head (h : cs.dropWhile isBlank = c :: rest) (hc : c ≠ '<') :
    bare cs = withoutLetters (c :: rest) := by
  have hhead : (some c == some '<') = false := by simpa using hc
  simp only [bare, h, List.head?_cons, hhead, Bool.false_eq_true, if_false]

end Shapes

/-- The letters are taken away before a mark, or up to it. -/
theorem withoutLetters_append {cs : List Char} (h : EndsInMark cs) (more : List Char) :
    withoutLetters (cs ++ more) = withoutLetters cs ++ more ∨
      withoutLetters (cs ++ more) <:+ more := by
  by_cases hletters : ['U', 'R', 'L', ':'] <+: cs
  · have hboth := (h.letters_prefix_iff more).2 hletters
    rw [withoutLetters, withoutLetters, if_pos (List.isPrefixOf_iff_prefix.2 hboth),
      if_pos (List.isPrefixOf_iff_prefix.2 hletters)]
    obtain ⟨rest, rfl⟩ := hletters
    change (rest ++ more).dropWhile isBlank = rest.dropWhile isBlank ++ more ∨
      (rest ++ more).dropWhile isBlank <:+ more
    by_cases hrest : rest = []
    · rw [hrest, List.nil_append]
      exact .inr (List.dropWhile_suffix _)
    · exact .inl ((h.of_append hrest).dropWhile_append more).1
  · left
    rw [withoutLetters, withoutLetters, if_neg, if_neg]
    · rwa [List.isPrefixOf_iff_prefix]
    · rwa [List.isPrefixOf_iff_prefix, h.letters_prefix_iff]

/-- All that is taken away in front stands before a mark, or reaches up to it. -/
theorem bare_append {cs : List Char} (h : EndsInMark cs) (more : List Char) :
    bare (cs ++ more) = bare cs ++ more ∨ bare (cs ++ more) <:+ more := by
  obtain ⟨hstart, hmark⟩ := h.dropWhile_append more
  obtain ⟨c, rest, hcs⟩ := List.exists_cons_of_ne_nil hmark.ne_nil
  rw [hcs] at hmark hstart
  rw [List.cons_append] at hstart
  by_cases hopen : c = '<'
  · subst hopen
    obtain ⟨hrest, hmark'⟩ := hmark.of_bracket.dropWhile_append more
    rw [bare_of_bracket hcs, bare_of_bracket hstart, hrest]
    exact withoutLetters_append hmark' more
  · rw [bare_of_head hcs hopen, bare_of_head hstart hopen]
    exact withoutLetters_append hmark more

/-- What is left is the end of the address. -/
theorem bare_suffix (cs : List Char) : bare cs <:+ cs := by
  have hletters (ds : List Char) : withoutLetters ds <:+ ds := by
    rw [withoutLetters]
    split
    · exact (List.dropWhile_suffix _).trans (List.drop_suffix 4 ds)
    · exact List.suffix_refl ds
  refine (hletters _).trans (List.IsSuffix.trans ?_ (List.dropWhile_suffix isBlank))
  split
  · exact (List.dropWhile_suffix _).trans (List.drop_suffix 1 _)
  · exact List.suffix_refl _

/-- What is taken away in front of an address is taken away in front of the mark of its scheme. -/
theorem exists_endsInMark_of_bare {cs : List Char} (h : StartsWithScheme (bare cs)) :
    ∃ core more, cs = core ++ more ∧ StartsWithScheme (bare core) ∧ EndsInMark core := by
  obtain ⟨core, more, hbare, hscheme, before, last, rfl, hlast⟩ := h.exists_endsInMark
  obtain ⟨lead, hlead⟩ := bare_suffix cs
  have hcs : cs = lead ++ (before ++ [last]) ++ more := by
    rw [← hlead, hbare, List.append_assoc lead]
  have hmark : EndsInMark (lead ++ (before ++ [last])) :=
    ⟨lead ++ before, last, by rw [List.append_assoc], hlast⟩
  refine ⟨_, more, hcs, ?_, hmark⟩
  rw [hcs] at hbare
  rcases bare_append hmark more with hkept | hsuffix
  · rw [hkept] at hbare
    rwa [List.append_cancel_right hbare]
  · have hlength := hsuffix.length_le
    rw [hbare, List.length_append, List.length_append, List.length_singleton] at hlength
    omega

/-! ### Unwrapping -/

/-- The letters in front leave a scheme behind them. -/
theorem startsWithScheme_of_withoutLetters {cs : List Char}
    (h : StartsWithScheme (withoutLetters cs)) : StartsWithScheme cs := by
  rw [withoutLetters] at h
  split at h
  · next hletters => exact startsWithScheme_of_prefix (List.isPrefixOf_iff_prefix.1 hletters)
  · exact h

/-- The letters in front of a scheme are taken away whatever follows it. -/
theorem startsWithScheme_trimLetters_append {cs : List Char} (hmark : EndsInMark cs)
    (h : StartsWithScheme (withoutLetters cs)) (more : List Char) :
    StartsWithScheme (trimLetters (cs ++ more)) := by
  rw [withoutLetters] at h
  rw [trimLetters]
  split
  · next hletters =>
    have hcs := (hmark.letters_prefix_iff more).1 (List.isPrefixOf_iff_prefix.1 hletters)
    rw [if_pos (List.isPrefixOf_iff_prefix.2 hcs)] at h
    obtain ⟨rest, rfl⟩ := hcs
    change StartsWithScheme (rest.dropWhile isBlank) at h
    change StartsWithScheme (Text.trimChars (rest ++ more))
    have hrest : rest ≠ [] := by
      rintro rfl
      exact h.ne_nil rfl
    obtain ⟨after, htrim⟩ := (hmark.of_append hrest).exists_trimChars more
    rw [htrim]
    exact h.append after
  · next hletters =>
    rw [List.isPrefixOf_iff_prefix, hmark.letters_prefix_iff] at hletters
    rw [if_neg (by rwa [List.isPrefixOf_iff_prefix])] at h
    exact h.append more

/-- **Unwrapping keeps such a scheme**, whatever follows it. -/
theorem StartsWithScheme.unwrapUrl_of_bare {cs : List Char} (hmark : EndsInMark cs)
    (h : StartsWithScheme (bare cs)) (more : List Char) :
    StartsWithScheme (unwrapUrl (cs ++ more)) := by
  obtain ⟨after, htrim⟩ := hmark.exists_trimChars more
  obtain ⟨-, hkept⟩ := hmark.dropWhile_append more
  obtain ⟨c, rest, hcs⟩ := List.exists_cons_of_ne_nil hkept.ne_nil
  rw [hcs] at hkept htrim
  by_cases hopen : c = '<'
  · subst hopen
    rw [bare_of_bracket hcs] at h
    by_cases hclose : ('<' :: rest ++ after).getLast? = some '>'
    · -- the bracket that closes stands behind the mark
      obtain ⟨after, rfl⟩ := hkept.exists_of_getLast? hclose
      obtain ⟨after', hheld⟩ := hkept.of_bracket.exists_trimChars after
      rw [List.cons_append, ← List.append_assoc] at htrim
      rw [unwrapUrl_of_brackets htrim, hheld]
      exact startsWithScheme_trimLetters_append (hkept.of_bracket.dropWhile_append after).2 h after'
    · -- the bracket in front is a part of the scheme
      have hletters : ¬ ['U', 'R', 'L', ':'] <+: '<' :: rest ++ after := by
        rw [List.cons_append, List.cons_prefix_cons]
        exact fun h => absurd h.1 (by decide)
      rw [unwrapUrl_of_end (by rwa [htrim]), htrim, trimLetters,
        if_neg (by rwa [List.isPrefixOf_iff_prefix])]
      have hblanks := (startsWithScheme_of_withoutLetters h).prepend (List.forall_mem_cons.2
        ⟨(by decide : '<' ≠ ':' ∧ '<' ≠ '/' ∧ '<' ≠ '#'),
          fun c (hc : c ∈ rest.takeWhile isBlank) => ne_of_isBlank (List.mem_takeWhile_imp hc)⟩)
      rw [List.cons_append, List.takeWhile_append_dropWhile] at hblanks
      exact hblanks.append after
  · rw [bare_of_head hcs hopen] at h
    rw [unwrapUrl_of_head htrim hopen]
    exact startsWithScheme_trimLetters_append hkept h after

/-! ### Schemes that some path would spoil -/

/-- Blanks in front of something are dropped as they are when it is trimmed. -/
theorem exists_dropWhile_append {cs : List Char} (h : Text.trimChars cs ≠ []) (more : List Char) :
    ∃ more', (cs ++ more).dropWhile isBlank = Text.trimChars cs ++ more' := by
  obtain ⟨before, after, hcs, hbefore, -⟩ := Text.exists_trimChars cs
  obtain ⟨c, rest, htrim⟩ := List.exists_cons_of_ne_nil h
  have hc := Text.isBlank_of_trimChars_eq_cons htrim
  refine ⟨after ++ more, ?_⟩
  conv_lhs => rw [hcs]
  rw [htrim, List.append_assoc, List.append_assoc, List.dropWhile_append_of_pos hbefore,
    List.cons_append, List.dropWhile_cons_of_neg (by simp [hc])]

/-- A scheme behind the letters in front is one with more behind it. -/
theorem startsWithScheme_withoutLetters_append {cs : List Char}
    (h : StartsWithScheme (trimLetters cs)) (more : List Char) :
    StartsWithScheme (withoutLetters (cs ++ more)) := by
  rw [trimLetters] at h
  rw [withoutLetters]
  split at h
  · next hletters =>
    obtain ⟨rest, rfl⟩ := List.isPrefixOf_iff_prefix.1 hletters
    obtain ⟨more', hkept⟩ := exists_dropWhile_append h.ne_nil more
    rw [if_pos (List.isPrefixOf_iff_prefix.2 (by simp)), List.append_assoc]
    change StartsWithScheme ((rest ++ more).dropWhile isBlank)
    exact hkept ▸ h.append more'
  · next hletters =>
    obtain ⟨core, after, rfl, -, hmark⟩ := h.exists_endsInMark
    rw [if_neg]
    · exact h.append more
    · rw [List.isPrefixOf_iff_prefix, hmark.letters_prefix_iff] at hletters
      rwa [List.isPrefixOf_iff_prefix, List.append_assoc, hmark.letters_prefix_iff]

/-- A scheme that neither nothing nor a bracket behind it spoils is kept whatever follows. -/
theorem startsWithScheme_bare_append {cs : List Char} (h : StartsWithScheme (unwrapUrl cs))
    (hbracket : StartsWithScheme (unwrapUrl (cs ++ ['>']))) (more : List Char) :
    StartsWithScheme (bare (cs ++ more)) := by
  have hne := h.of_unwrapUrl.ne_nil
  obtain ⟨before, after, hcs, hbefore, -⟩ := Text.exists_trimChars cs
  obtain ⟨c, rest, htrim⟩ := List.exists_cons_of_ne_nil hne
  by_cases hopen : c = '<'
  · -- the bracket is taken away with the one behind it, and what they hold has the scheme
    subst hopen
    have hclosed : Text.trimChars (cs ++ ['>']) = '<' :: (rest ++ after ++ ['>']) := by
      have hlast : ('<' :: (rest ++ after ++ ['>'])).getLast? = some '>' := by
        rw [← List.cons_append, List.getLast?_concat]
      rw [← Text.trimChars_append_cons hbefore (by decide) hlast (by decide)]
      conv_lhs => rw [hcs, htrim]
      simp only [List.append_assoc, List.cons_append]
    have hstart : (cs ++ more).dropWhile isBlank = '<' :: (rest ++ after ++ more) := by
      conv_lhs => rw [hcs, htrim]
      rw [List.append_assoc, List.append_assoc, List.dropWhile_append_of_pos hbefore,
        List.cons_append, List.dropWhile_cons_of_neg (by decide), List.append_assoc]
    rw [unwrapUrl_of_brackets hclosed] at hbracket
    have hheld : Text.trimChars (rest ++ after) ≠ [] := by
      intro hnil
      rw [hnil] at hbracket
      exact hbracket.ne_nil rfl
    obtain ⟨more', hkept⟩ := exists_dropWhile_append hheld more
    rw [bare_of_bracket hstart, hkept]
    exact startsWithScheme_withoutLetters_append hbracket more'
  · obtain ⟨more', hkept⟩ := exists_dropWhile_append hne more
    rw [htrim] at hkept
    rw [unwrapUrl_of_head htrim hopen] at h
    rw [bare_of_head hkept hopen]
    exact startsWithScheme_withoutLetters_append h more'

end Request

namespace Client

variable {σ : Type} {client : Client σ}

/-- **Every path of a code host with a scheme has an address.** -/
theorem address?_isSome_of_opensWithScheme (h : Request.OpensWithScheme client.apiUrl)
    (path : String) : (client.address? path).isSome = true := by
  obtain ⟨core, more, hcs, hscheme, hmark⟩ := Request.exists_endsInMark_of_bare h
  obtain ⟨more', hkept⟩ := hmark.exists_dropEnd (p := (· == '/')) (by decide) (by decide) more
  rw [address?, Request.normalizeUrl?_isSome_iff, String.toList_append, Text.dropTrailing,
    String.toList_ofList, hcs, hkept, List.append_assoc]
  exact hscheme.unwrapUrl_of_bare hmark _

/-- **A code host has such a scheme exactly when every path has an address.** -/
theorem opensWithScheme_iff :
    Request.OpensWithScheme client.apiUrl ↔ ∀ path, (client.address? path).isSome = true := by
  refine ⟨address?_isSome_of_opensWithScheme, fun h => ?_⟩
  have hkept (path : String) : Request.StartsWithScheme (Request.unwrapUrl
      (Text.dropEnd (· == '/') client.apiUrl.toList ++ path.toList)) := by
    have haddress := h path
    rwa [address?, Request.normalizeUrl?_isSome_iff, String.toList_append, Text.dropTrailing,
      String.toList_ofList] at haddress
  have hslashes : client.apiUrl.toList = Text.dropEnd (· == '/') client.apiUrl.toList ++
      client.apiUrl.toList.rtakeWhile (· == '/') := by
    rw [Text.dropEnd_eq_rdropWhile, List.rdropWhile_append_rtakeWhile]
  have hplain := hkept ""
  rw [String.toList_empty, List.append_nil] at hplain
  rw [Request.OpensWithScheme, hslashes]
  exact Request.startsWithScheme_bare_append hplain (hkept ">") _

end Client

end LintReport.GitHub
