import LintReport.Json.Parser
import LintReport.Proofs.Text.Blank
import Mathlib.Tactic

/-!
# Blank Texts

The white space of JSON is a part of what counts as blank, and no token of JSON starts with a blank
character. A blank text is therefore refused, and neither holds a value nor takes more room than
there is.

## Main results

* `value_blank`: no value starts with a blank character.
* `parse_blank`: **a blank text is refused**.
* `isBlankText_of_parse`: **a text that holds a value is not blank**.
-/

namespace LintReport.Json

open Text (isBlank)

/-- Every word starts with a character that is not blank. -/
theorem words_notBlank : ∀ w ∈ words, ∃ d ∈ w.1.toList.head?, isBlank d = false := by
  intro w hw
  have hhead : ∀ w ∈ words, (w.1.toList.head?.any fun d => !isBlank d) = true := by decide
  have h := hhead w hw
  rw [Option.any_eq_true] at h
  obtain ⟨d, hd, hblank⟩ := h
  exact ⟨d, hd, by simpa using hblank⟩

/-- No word starts with a blank character. -/
theorem word?_blank {c : Char} (hc : isBlank c = true) (rest : List Char) :
    word? (c :: rest) = none := by
  rw [word?, List.findSome?_eq_none_iff]
  rintro ⟨word, v⟩ hw
  dsimp only
  rw [if_neg]
  intro hprefix
  obtain ⟨d, hd, hblank⟩ := words_notBlank _ hw
  obtain ⟨more, hmore⟩ := List.isPrefixOf_iff_prefix.mp hprefix
  have hhead : (c :: rest).head? = some d := by
    rw [← hmore, List.head?_append, hd]
    rfl
  exact Text.ne_of_test hc hblank (Option.some.inj hhead)

/-- No number starts with a blank character. -/
theorem number?_blank {c : Char} (hc : isBlank c = true) (rest : List Char) :
    number? (c :: rest) = none := by
  have hzero : ¬(c == '0') = true := by simpa using Text.ne_of_test hc (by decide)
  have hdigit : ¬c.isDigit = true := by
    intro h
    exact Text.ne_of_test hc (Text.isBlank_of_isDigit h) rfl
  rw [number?, unsignedNumber?, wholeDigits?, if_neg hzero, if_neg hdigit]
  · rfl
  · intro more hmore
    rw [List.cons.injEq] at hmore
    exact Text.ne_of_test hc (by decide) hmore.1

/-- **No value starts with a blank character**: neither a quote nor a bracket, a word or a
number. -/
theorem value_blank {c : Char} (hc : isBlank c = true) (budget room : Nat) (rest : List Char) :
    value (budget + 1) room (c :: rest) = fail .value (c :: rest) := by
  have hbeq (d : Char) (hd : isBlank d = false) : ¬(c == d) = true := by
    simpa using Text.ne_of_test hc hd
  have hbracket := hbeq '[' (by decide)
  have hbrace := hbeq '\x7b' (by decide)
  have hopening : ¬(isOpening c && room == 0) = true := by simp [isOpening, hbracket, hbrace]
  rw [value, if_neg (hbeq _ (by decide)), if_neg hopening, if_neg hbracket, if_neg hbrace,
    word?_blank hc, number?_blank hc]
  rfl

/-- **A blank text is refused**: it is no JSON, and not beyond the reader. -/
theorem parse_blank {text : String} (hblank : Text.isBlankText text = true) :
    ∃ fault, parse text = .error (.notJson fault) := by
  rw [Text.isBlankText, List.all_eq_true] at hblank
  have hfail : ∃ cause left, value (2 * text.toList.length + 2) depthLimit (skipSpace text.toList) =
      .error (.refused cause left) := by
    cases hskip : skipSpace text.toList with
    | nil => exact ⟨_, _, rfl⟩
    | cons c rest =>
      have hmem : c ∈ text.toList := by
        refine (List.dropWhile_sublist isSpace).mem ?_
        rw [← skipSpace, hskip]
        exact List.mem_cons_self
      exact ⟨_, _, value_blank (hblank c hmem) _ _ rest⟩
  obtain ⟨cause, left, hfault⟩ := hfail
  have hmark : ∀ rest, text.toList ≠ '\uFEFF' :: rest := by
    intro rest hrest
    have hbom := hblank '\uFEFF' (by simp [hrest])
    exact absurd hbom (by decide)
  rw [parse, parseChars, hfault]
  · exact ⟨_, rfl⟩
  · exact hmark

/-- **A text that holds a value is not blank.** -/
theorem isBlankText_of_parse {text : String} {v : Json} (h : parse text = .ok v) :
    Text.isBlankText text = false := by
  by_contra hblank
  obtain ⟨fault, hfault⟩ := parse_blank (Bool.eq_true_of_not_eq_false hblank)
  cases h.symm.trans hfault

/-- A text that is beyond the reader is not blank. -/
theorem isBlankText_of_beyond {text : String} {limit : Limit}
    (h : parse text = .error (.beyond limit)) : Text.isBlankText text = false := by
  by_contra hblank
  obtain ⟨fault, hfault⟩ := parse_blank (Bool.eq_true_of_not_eq_false hblank)
  cases h.symm.trans hfault

end LintReport.Json
