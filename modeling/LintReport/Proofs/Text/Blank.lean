import LintReport.Text.Blank
import Mathlib.Data.List.DropRight

/-!
# Blank Characters

No blank character is a digit or a small letter. Trimming takes away a run of blanks at either end,
and the two ends do not get in each other's way: it does not matter which end is taken first, so
that a trimmed text is its own trim.

## Main results

* `isBlank_of_isDigit`, `isBlank_of_isLower`: digits and small letters are not blank.
* `dropStart_dropEnd`: the two ends commute.
* `trim_trim`: **trimming is idempotent**.
* `exists_trimChars`: what trimming takes away is a run of blanks at either end.
* `isBlankText_trim`: trimming neither makes a text blank nor makes a blank text worth reading.
-/

namespace LintReport.Text

/-! ### Classes of characters -/

/-- A character that passes a test is none of those that fail it. -/
theorem ne_of_test {p : Char → Bool} {c d : Char} (hc : p c = true) (hd : p d = false) :
    c ≠ d := by
  rintro rfl
  rw [hc] at hd
  exact Bool.noConfusion hd

/-- A character between two others has a code between theirs. -/
theorem toNat_between {low high c : Char}
    (h : (decide (low.val ≤ c.val) && decide (c.val ≤ high.val)) = true) :
    low.toNat ≤ c.toNat ∧ c.toNat ≤ high.toNat := by
  rw [Bool.and_eq_true, decide_eq_true_eq, decide_eq_true_eq, UInt32.le_iff_toNat_le,
    UInt32.le_iff_toNat_le] at h
  exact h

/-- A character between two others is not blank if no code between theirs is. -/
theorem isBlank_of_between {low high c : Char}
    (hcodes : ∀ n ∈ blankCodes, n < low.toNat ∨ high.toNat < n)
    (h : (decide (low.val ≤ c.val) && decide (c.val ≤ high.val)) = true) : isBlank c = false := by
  obtain ⟨hlow, hhigh⟩ := toNat_between h
  rw [isBlank, Bool.eq_false_iff, ne_eq, List.contains_iff_mem]
  intro hmem
  have hcode := hcodes c.toNat hmem
  omega

/-- A digit is not blank. -/
theorem isBlank_of_isDigit {c : Char} (h : c.isDigit = true) : isBlank c = false := by
  have hcodes : ∀ n ∈ blankCodes, n < '0'.toNat ∨ '9'.toNat < n := by decide
  exact isBlank_of_between hcodes h

/-- A small letter is not blank. -/
theorem isBlank_of_isLower {c : Char} (h : c.isLower = true) : isBlank c = false := by
  have hcodes : ∀ n ∈ blankCodes, n < 'a'.toNat ∨ 'z'.toNat < n := by decide
  exact isBlank_of_between hcodes h

/-! ### Trimming -/

/-- Dropping from the end is what the library calls `rdropWhile`. -/
theorem dropEnd_eq_rdropWhile (p : Char → Bool) (cs : List Char) :
    dropEnd p cs = cs.rdropWhile p := rfl

/-- The two ends commute: dropping a class of characters at the start and at the end can be done in
either order. -/
theorem dropStart_dropEnd (p : Char → Bool) (cs : List Char) :
    dropStart p (dropEnd p cs) = dropEnd p (dropStart p cs) := by
  simp only [dropEnd_eq_rdropWhile, dropStart]
  induction cs using List.reverseRecOn with
  | nil => rfl
  | append_singleton cs c ih =>
    by_cases hc : p c
    · rw [List.rdropWhile_concat_pos _ _ _ hc, ih, List.dropWhile_append]
      split
      · next h =>
        rw [List.isEmpty_iff] at h
        rw [h, List.dropWhile_cons_of_pos hc, List.dropWhile_nil]
      · rw [List.rdropWhile_concat_pos _ _ _ hc]
    · rw [List.rdropWhile_concat_neg _ _ _ hc, List.dropWhile_append]
      split
      · rw [List.dropWhile_cons_of_neg hc, ← List.nil_append [c],
          List.rdropWhile_concat_neg _ _ _ hc]
      · rw [List.rdropWhile_concat_neg _ _ _ hc]

/-- A trimmed list of characters is its own trim. -/
theorem trimChars_trimChars (cs : List Char) : trimChars (trimChars cs) = trimChars cs := by
  have hstart : dropStart isBlank (dropStart isBlank cs) = dropStart isBlank cs :=
    List.dropWhile_idempotent isBlank cs
  have hend (ds : List Char) : dropEnd isBlank (dropEnd isBlank ds) = dropEnd isBlank ds :=
    List.rdropWhile_idempotent isBlank ds
  rw [trimChars, trimChars, dropStart_dropEnd, hend, hstart]

/-- **Trimming is idempotent.** -/
@[simp] theorem trim_trim (s : String) : trim (trim s) = trim s := by
  simp only [trim, String.toList_ofList, trimChars_trimChars]

/-- A list of characters trims to nothing exactly when it holds blanks only. -/
theorem trimChars_eq_nil_iff {cs : List Char} : trimChars cs = [] ↔ cs.all isBlank = true := by
  rw [trimChars, dropEnd_eq_rdropWhile, List.rdropWhile_eq_nil_iff, List.all_eq_true]
  constructor
  · intro h c hc
    rw [← List.takeWhile_append_dropWhile (p := isBlank) (l := cs), List.mem_append] at hc
    rcases hc with hc | hc
    · exact List.mem_takeWhile_imp hc
    · exact h c hc
  · intro h c hc
    exact h c (List.dropWhile_sublist isBlank |>.mem hc)

/-- What trimming takes away is a run of blanks at either end. -/
theorem exists_trimChars (cs : List Char) :
    ∃ before after, cs = before ++ trimChars cs ++ after ∧ (∀ c ∈ before, isBlank c = true) ∧
      ∀ c ∈ after, isBlank c = true := by
  refine ⟨cs.takeWhile isBlank, (cs.dropWhile isBlank).rtakeWhile isBlank, ?_,
    fun _ => List.mem_takeWhile_imp, fun _ => List.mem_rtakeWhile_imp⟩
  rw [trimChars, dropStart, dropEnd_eq_rdropWhile, List.append_assoc,
    List.rdropWhile_append_rtakeWhile, List.takeWhile_append_dropWhile]

/-- A trimmed list of characters does not start with a blank. -/
theorem isBlank_of_trimChars_eq_cons {cs rest : List Char} {c : Char}
    (h : trimChars cs = c :: rest) : isBlank c = false := by
  have hstart : dropStart isBlank (trimChars cs) = trimChars cs := by
    rw [trimChars, dropStart_dropEnd, dropStart, dropStart, List.dropWhile_idempotent]
  rw [h, dropStart, List.dropWhile_cons] at hstart
  split at hstart
  · have hlength := congrArg List.length hstart
    have hle := (List.dropWhile_sublist (l := rest) isBlank).length_le
    rw [List.length_cons] at hlength
    omega
  · next hc => simpa using hc

/-- Between two characters that are not blank nothing is taken away. -/
theorem trimChars_append_cons {before rest : List Char} {c last : Char}
    (hbefore : ∀ c ∈ before, isBlank c = true) (hc : isBlank c = false)
    (hlast : (c :: rest).getLast? = some last) (hblank : isBlank last = false) :
    trimChars (before ++ c :: rest) = c :: rest := by
  rw [trimChars, dropStart, List.dropWhile_append_of_pos hbefore,
    List.dropWhile_cons_of_neg (by simp [hc]), dropEnd_eq_rdropWhile, List.rdropWhile_eq_self_iff]
  intro hne
  rw [List.getLast?_eq_some_getLast hne, Option.some.injEq] at hlast
  rw [hlast, hblank]
  exact Bool.false_ne_true

/-- Blanks at the end are taken away. -/
theorem trimChars_append_blanks {after : List Char} (hafter : ∀ c ∈ after, isBlank c = true)
    (cs : List Char) : trimChars (cs ++ after) = trimChars cs := by
  simp only [trimChars, ← dropStart_dropEnd]
  congr 1
  rw [dropEnd, dropEnd, List.reverse_append,
    List.dropWhile_append_of_pos fun c hc => hafter c (List.mem_reverse.1 hc)]

/-- Blanks around a text are taken away. -/
theorem trim_append_append {before after : String} (hbefore : isBlankText before = true)
    (hafter : isBlankText after = true) (s : String) :
    trim (before ++ s ++ after) = trim s := by
  rw [isBlankText, List.all_eq_true] at hbefore hafter
  rw [trim, trim, String.toList_append, String.toList_append, trimChars_append_blanks hafter,
    trimChars, dropStart, List.dropWhile_append_of_pos hbefore]
  rfl

/-- The trim of a text is empty exactly when the text is blank. -/
theorem trim_eq_empty_iff {s : String} : trim s = "" ↔ isBlankText s = true := by
  rw [isBlankText, ← trimChars_eq_nil_iff, trim, ← String.toList_inj, String.toList_ofList]
  rfl

/-- What is left of a text was in it. -/
theorem mem_of_mem_trim {s : String} {c : Char} (h : c ∈ (trim s).toList) : c ∈ s.toList := by
  obtain ⟨before, after, hchars, -, -⟩ := exists_trimChars s.toList
  rw [trim, String.toList_ofList] at h
  rw [hchars]
  exact List.mem_append_left after (List.mem_append_right before h)

/-- The trim of a text is blank exactly when the text is. -/
@[simp] theorem isBlankText_trim (s : String) : isBlankText (trim s) = isBlankText s := by
  rw [Bool.eq_iff_iff, isBlankText, isBlankText, ← trimChars_eq_nil_iff, ← trimChars_eq_nil_iff,
    trim, String.toList_ofList, trimChars_trimChars]

end LintReport.Text
