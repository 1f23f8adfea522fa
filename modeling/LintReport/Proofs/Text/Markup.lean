import LintReport.Text.Markup

/-!
# Reading Entities

The five characters that are written as entities are the only ones, and an ampersand is one of them,
so every ampersand in an escaped text starts an entity. Undoing the entities from left to right
therefore gives the text back, and nothing that HTML reads as markup or as the end of an attribute
is left in it.

## Main definitions

* `Text.unescapeMarkup`: a text in which the five entities are undone.

## Main results

* `Text.unescapeMarkup_escapeMarkup`: **escaping can be undone**.
* `Text.notMem_escapeMarkup`: an escaped text holds no markup.
-/

namespace LintReport.Text

/-- Characters in which each of the five entities is the character that it stands for. -/
def unescapeChars : List Char → List Char
  | '&' :: 'a' :: 'm' :: 'p' :: ';' :: rest => '&' :: unescapeChars rest
  | '&' :: 'l' :: 't' :: ';' :: rest => '<' :: unescapeChars rest
  | '&' :: 'g' :: 't' :: ';' :: rest => '>' :: unescapeChars rest
  | '&' :: 'q' :: 'u' :: 'o' :: 't' :: ';' :: rest => doubleQuote :: unescapeChars rest
  | '&' :: '#' :: 'x' :: '2' :: '7' :: ';' :: rest => apostrophe :: unescapeChars rest
  | c :: rest => c :: unescapeChars rest
  | [] => []

/-- A text in which the five entities are undone. -/
def unescapeMarkup (s : String) : String := String.ofList (unescapeChars s.toList)

/-- The five characters with their entities. -/
def entities : List (Char × List Char) :=
  [('&', "&amp;".toList), ('<', "&lt;".toList), ('>', "&gt;".toList),
    (doubleQuote, "&quot;".toList), (apostrophe, "&#x27;".toList)]

/-- A character is written as its entity, or else stands for itself. -/
theorem escapeMarkupChar_cases (c : Char) :
    (c, escapeMarkupChar c) ∈ entities ∨
      c ∉ entities.map Prod.fst ∧ escapeMarkupChar c = [c] := by
  by_cases hc : c ∈ entities.map Prod.fst
  · left
    obtain ⟨entity, hmem, rfl⟩ := List.mem_map.1 hc
    revert entity
    decide
  · refine .inr ⟨hc, ?_⟩
    simp only [entities, List.map_cons, List.map_nil, List.mem_cons, List.not_mem_nil, or_false,
      not_or] at hc
    simp only [escapeMarkupChar, beq_iff_eq, hc, if_false]

/-- An entity is undone. -/
theorem unescapeChars_entity (rest : List Char) :
    ∀ entity ∈ entities, unescapeChars (entity.2 ++ rest) = entity.1 :: unescapeChars rest := by
  simp only [entities, List.forall_mem_cons]
  exact ⟨rfl, rfl, rfl, rfl, rfl, List.forall_mem_nil _⟩

/-- Any other character than an ampersand stands for itself. -/
theorem unescapeChars_cons {c : Char} (hc : c ≠ '&') (rest : List Char) :
    unescapeChars (c :: rest) = c :: unescapeChars rest := by
  rw [unescapeChars.eq_def]
  split <;> simp_all

/-- An escaped character is undone. -/
theorem unescapeChars_escapeMarkupChar (c : Char) (rest : List Char) :
    unescapeChars (escapeMarkupChar c ++ rest) = c :: unescapeChars rest := by
  rcases escapeMarkupChar_cases c with hentity | ⟨hc, hself⟩
  · exact unescapeChars_entity rest _ hentity
  · rw [hself]
    refine unescapeChars_cons ?_ rest
    rintro rfl
    exact hc List.mem_cons_self

/-- **Escaping can be undone.** -/
theorem unescapeMarkup_escapeMarkup (s : String) : unescapeMarkup (escapeMarkup s) = s := by
  have hchars (cs : List Char) : unescapeChars (cs.flatMap escapeMarkupChar) = cs := by
    induction cs with
    | nil => rfl
    | cons c cs ih => rw [List.flatMap_cons, unescapeChars_escapeMarkupChar, ih]
  rw [unescapeMarkup, escapeMarkup, String.toList_ofList, hchars, String.ofList_toList]

/-- **An escaped text holds no markup**, and no quote that could end an attribute. -/
theorem notMem_escapeMarkup (s : String) :
    ∀ mark ∈ ['<', '>', doubleQuote, apostrophe], mark ∉ (escapeMarkup s).toList := by
  have hentities : (['<', '>', doubleQuote, apostrophe].all fun mark =>
      (entities.map Prod.fst).contains mark &&
        entities.all fun entity => !entity.2.contains mark) = true := by
    decide
  simp only [List.all_eq_true, Bool.and_eq_true, Bool.not_eq_true',
    List.contains_eq_mem, decide_eq_false_iff_not, decide_eq_true_eq] at hentities
  intro mark hmark hmem
  obtain ⟨hescaped, hnone⟩ := hentities mark hmark
  rw [escapeMarkup, String.toList_ofList, List.mem_flatMap] at hmem
  obtain ⟨c, -, hc⟩ := hmem
  rcases escapeMarkupChar_cases c with hentity | ⟨hkept, hself⟩
  · exact hnone _ hentity hc
  · rw [hself, List.mem_singleton] at hc
    exact hkept (hc ▸ hescaped)

end LintReport.Text
