import LintReport.Number.Numeral
import LintReport.Proofs.Number.Order
import LintReport.Proofs.Text.Blank

/-!
# Spellings of Not-a-Number

A text is read as not-a-number exactly where it spells `nan` in some letter case, perhaps behind a
sign. Digits of any script and underscores, which a number may have, have no place in that spelling.

## Main definitions

* `Numeral.core`: a text without the blanks that may surround a number.
* `Numeral.SpellsNan`: the spellings of not-a-number.

## Main results

* `Numeral.float?_eq_nan_iff`: **which texts are read as not-a-number**.
* `Numeral.core_trim`: a trimmed text has no blanks around a number.
-/

namespace LintReport.Numeral

variable {cs ds : List Char} {s : String}

/-! ### The spellings -/

/-- Whether characters spell `nan` in some letter case, with a sign or without. -/
def SpellsNan (cs : List Char) : Prop :=
  ∃ sign letters, cs = sign ++ letters ∧ sign ∈ [[], ['+'], ['-']] ∧
    letters.map Char.toLower = ['n', 'a', 'n']

/-- A letter has the code of its small letter, or one that is less by 32. -/
theorem toNat_toLower (c : Char) : c.toLower.toNat = c.toNat ∨ c.toLower.toNat = c.toNat + 32 := by
  delta Char.toLower
  split
  · next hupper =>
    have hhigh : c.val.toNat ≤ 90 := UInt32.le_iff_toNat_le.1 hupper.2
    right
    change (c.val + 32).toNat = c.val.toNat + 32
    rw [UInt32.toNat_add]
    change (c.val.toNat + 32) % 2 ^ 32 = _
    omega
  · exact .inl rfl

/-- A letter that is made small is one of two. -/
theorem eq_of_toLower_eq {c low : Char} (high : Char) (h : c.toLower = low)
    (hcode : low.toNat = high.toNat + 32) : c = low ∨ c = high := by
  have hsame {d : Char} (hd : c.toNat = d.toNat) : c = d := Char.ext (UInt32.toNat_inj.1 hd)
  obtain heq | heq := toNat_toLower c
  · exact .inl (hsame (by rw [← heq, h]))
  · exact .inr (hsame (by rw [h] at heq; omega))

/-- The characters of a spelling are signs and three letters in two cases. -/
theorem SpellsNan.mem (h : SpellsNan cs) {c : Char} (hc : c ∈ cs) :
    c ∈ ['+', '-', 'n', 'N', 'a', 'A'] := by
  obtain ⟨sign, letters, rfl, hsign, hletters⟩ := h
  obtain hc | hc := List.mem_append.1 hc
  · simp only [List.mem_cons, List.not_mem_nil, or_false] at hsign
    obtain rfl | rfl | rfl := hsign <;> simp_all
  · have hlower : c.toLower ∈ ['n', 'a', 'n'] := hletters ▸ List.mem_map_of_mem hc
    have hsmall : c.toLower = 'n' ∨ c.toLower = 'a' ∨ c.toLower = 'n' := by simpa using hlower
    have hn (h : c.toLower = 'n') : c ∈ ['+', '-', 'n', 'N', 'a', 'A'] := by
      obtain rfl | rfl := eq_of_toLower_eq 'N' h (by decide) <;> decide
    have ha (h : c.toLower = 'a') : c ∈ ['+', '-', 'n', 'N', 'a', 'A'] := by
      obtain rfl | rfl := eq_of_toLower_eq 'A' h (by decide) <;> decide
    exact hsmall.elim hn fun h => h.elim ha hn

/-- No character of a spelling is a digit, an underscore or a blank. -/
theorem SpellsNan.isNoDigit (h : SpellsNan cs) {c : Char} (hc : c ∈ cs) :
    Text.digitValue? c = none ∧ c.isDigit = false ∧ c ≠ '_' := by
  have hmember := h.mem hc
  simp only [List.mem_cons, List.not_mem_nil, or_false] at hmember
  rcases hmember with rfl | rfl | rfl | rfl | rfl | rfl <;> decide

/-- A spelling is what is left of it behind a sign. -/
theorem spellsNan_iff : SpellsNan cs ↔ (splitSign cs).2.map Char.toLower = ['n', 'a', 'n'] := by
  constructor
  · rintro ⟨sign, letters, rfl, hsign, hletters⟩
    have hnone : (splitSign letters).2 = letters := by
      rw [splitSign.eq_def]
      split
      · cases hletters
      · cases hletters
      · rfl
    simp only [List.mem_cons, List.not_mem_nil, or_false] at hsign
    obtain rfl | rfl | rfl := hsign
    · rwa [List.nil_append, hnone]
    · exact hletters
    · exact hletters
  · intro h
    rw [splitSign.eq_def] at h
    split at h
    · exact ⟨['-'], _, rfl, by simp, h⟩
    · exact ⟨['+'], _, rfl, by simp, h⟩
    · exact ⟨[], cs, rfl, by simp, h⟩

/-! ### Digits and underscores -/

/-- Characters without an underscore stay as they are. -/
theorem dropUnderscores_of_notMem (isDigit : Char → Bool) (afterDigit : Bool) (h : '_' ∉ cs) :
    dropUnderscores isDigit afterDigit cs = some cs := by
  induction cs generalizing afterDigit with
  | nil => rfl
  | cons c rest ih =>
    rw [List.mem_cons, not_or] at h
    rw [dropUnderscores, ih _ h.2]
    · rfl
    · rintro d rest rfl
      exact absurd rfl h.1
    · rintro rfl
      exact absurd rfl h.1

/-- Underscores are dropped between digits only. -/
theorem eq_of_dropUnderscores {isDigit : Char → Bool} {afterDigit : Bool}
    (h : dropUnderscores isDigit afterDigit cs = some ds) (hds : ∀ c ∈ ds, isDigit c = false) :
    cs = ds := by
  fun_induction dropUnderscores isDigit afterDigit cs generalizing ds with
  | case1 => exact Option.some.inj h
  | case2 afterDigit c rest hdigit ih =>
    obtain ⟨more, -, rfl⟩ := Option.map_eq_some_iff.1 h
    rw [Bool.and_eq_true, hds c List.mem_cons_self] at hdigit
    exact absurd hdigit.2 Bool.false_ne_true
  | case3 => cases h
  | case4 => cases h
  | case5 afterDigit c rest _ _ ih =>
    obtain ⟨more, hmore, rfl⟩ := Option.map_eq_some_iff.1 h
    rw [ih hmore fun d hd => hds d (List.mem_cons_of_mem c hd)]

/-- A text without the blanks that may surround a number. -/
def core (s : String) : List Char :=
  Text.dropEnd isOuterBlank (Text.dropStart isOuterBlank s.toList)

/-- A digit of any script has a value below ten. -/
theorem lt_of_digitValue?_eq_some {c : Char} {d : Nat} (h : Text.digitValue? c = some d) :
    d < 10 := by
  obtain ⟨start, hstart, rfl⟩ := Option.map_eq_some_iff.1 h
  have hrange := List.find?_some hstart
  rw [Bool.and_eq_true, decide_eq_true_eq, decide_eq_true_eq] at hrange
  omega

/-- A digit of any script is normalized to a digit. -/
theorem isDigit_normalize {c : Char} {d : Nat} (h : Text.digitValue? c = some d) :
    (Char.ofNat (48 + d)).isDigit = true := by
  have hdigits : ∀ d < 10, (Char.ofNat (48 + d)).isDigit = true := by decide
  exact hdigits d (lt_of_digitValue?_eq_some h)

/-- Characters that are digits of no script are normalized to themselves, and nothing else is. -/
theorem normalize_eq_iff (hds : ∀ c ∈ ds, Text.digitValue? c = none ∧ c.isDigit = false) :
    normalize s.toList = ds ↔ core s = ds := by
  have hsame (h : ∀ c ∈ core s, Text.digitValue? c = none) : normalize s.toList = core s := by
    refine (List.map_congr_left fun c hc => ?_).trans (List.map_id (core s))
    rw [h c hc]
    rfl
  constructor
  · intro h
    rw [← h]
    refine (hsame fun c hc => ?_).symm
    cases hvalue : Text.digitValue? c with
    | none => rfl
    | some d =>
      have hmem : Char.ofNat (48 + d) ∈ ds := by
        rw [← h]
        exact List.mem_map.2 ⟨c, hc, by rw [hvalue]⟩
      have hno := (hds _ hmem).2
      rw [isDigit_normalize hvalue] at hno
      cases hno
  · rintro rfl
    exact hsame fun c hc => (hds c hc).1

/-! ### Reading -/

/-- Digits are never read as not-a-number. -/
theorem decimal?_ne_nan (negative : Bool) (cs : List Char) : decimal? negative cs ≠ some .nan := by
  intro h
  rw [decimal?] at h
  split at h
  split at h
  -- whatever the whole part and the fraction are
  split at h
  · cases h
  · split at h
    · exact Binary64.ofDecimal_ne_nan _ _ _ (Option.some.inj h)
    · cases h

/-- **Which texts are read as not-a-number**: those that spell it, perhaps between blanks. -/
theorem float?_eq_nan_iff : float? s = some .nan ↔ SpellsNan (core s) := by
  have hread : float? s = some .nan ↔
      ∃ cs, dropUnderscores Char.isDigit false (normalize s.toList) = some cs ∧ SpellsNan cs := by
    rw [float?]
    cases dropUnderscores Char.isDigit false (normalize s.toList) with
    | none => simp
    | some cs =>
      have hword : String.ofList ((splitSign cs).2.map Char.toLower) = "nan" ↔ SpellsNan cs := by
        rw [spellsNan_iff, ← String.toList_inj, String.toList_ofList]
        rfl
      simp only [Option.some.injEq, exists_eq_left', ← hword, Bool.or_eq_true, beq_iff_eq]
      split
      · next hinfinity =>
        obtain heq | heq := hinfinity <;> simp [heq]
      · split
        · next hnan => simp [hnan]
        · next hnan => simp [hnan, decimal?_ne_nan]
  rw [hread]
  constructor
  · rintro ⟨cs, hcs, hspells⟩
    have hnormal := eq_of_dropUnderscores hcs fun c hc => (hspells.isNoDigit hc).2.1
    rw [normalize_eq_iff fun c hc => ⟨(hspells.isNoDigit hc).1, (hspells.isNoDigit hc).2.1⟩]
      at hnormal
    rwa [hnormal]
  · intro hspells
    refine ⟨core s, ?_, hspells⟩
    have hnormal : normalize s.toList = core s :=
      (normalize_eq_iff fun c hc => ⟨(hspells.isNoDigit hc).1, (hspells.isNoDigit hc).2.1⟩).2 rfl
    rw [hnormal]
    exact dropUnderscores_of_notMem _ _ fun hmem => (hspells.isNoDigit hmem).2.2 rfl

/-! ### Trimmed texts -/

/-- What may surround a number is blank. -/
theorem isBlank_of_isOuterBlank {c : Char} (h : isOuterBlank c = true) :
    Text.isBlank c = true := by
  have hcodes : ∀ n, 9 ≤ n → n ≤ 13 → Text.blankCodes.contains n = true := by decide
  simp only [isOuterBlank, Bool.or_eq_true, Bool.and_eq_true, decide_eq_true_eq, beq_iff_eq] at h
  obtain (rfl | hcontrol) | hblank := h
  · decide
  · exact hcodes _ hcontrol.1 hcontrol.2
  · exact hblank.2

/-- **A trimmed text has no blanks around a number.** -/
theorem core_trim (s : String) : core (Text.trim s) = (Text.trim s).toList := by
  have hsame {cs : List Char} (h : Text.dropStart Text.isBlank cs = cs) :
      Text.dropStart isOuterBlank cs = cs := by
    rw [Text.dropStart, List.dropWhile_eq_self_iff] at h ⊢
    exact fun hne => mt isBlank_of_isOuterBlank (h hne)
  have hsameEnd {cs : List Char} (h : Text.dropEnd Text.isBlank cs = cs) :
      Text.dropEnd isOuterBlank cs = cs := by
    rw [Text.dropEnd_eq_rdropWhile, List.rdropWhile_eq_self_iff] at h ⊢
    exact fun hne => mt isBlank_of_isOuterBlank (h hne)
  have hstart : Text.dropStart Text.isBlank (Text.trimChars s.toList) =
      Text.trimChars s.toList := by
    rw [Text.trimChars, Text.dropStart_dropEnd, Text.dropStart, Text.dropStart,
      List.dropWhile_idempotent]
  have hend : Text.dropEnd Text.isBlank (Text.trimChars s.toList) = Text.trimChars s.toList :=
    List.rdropWhile_idempotent Text.isBlank _
  rw [core, Text.trim, String.toList_ofList, hsame hstart, hsameEnd hend]

end LintReport.Numeral
