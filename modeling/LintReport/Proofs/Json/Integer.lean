import LintReport.Json.Parser
import LintReport.Json.Printer
import Mathlib.Tactic

/-!
# Reading Integers

An integer is written in decimal, and its digits are found again as long as what follows cannot
belong to a number. That holds of integers of any size; which of them the reader lets through is
another question.

## Main results

* `natOfDigits_toDigits`: decimal digits read back as their number.
* `wholeDigits?_toDigits`: the reader takes exactly the digits that were written.
* `number?_intChars`: **a written integer is found again**.
* `word?_eq_none`, `startsNumber_intChars`: no integer is taken for a word.
-/

namespace LintReport.Json

/-! ### Decimal digits -/

/-- **Decimal digits read back** as their number. -/
theorem natOfDigits_toDigits (n : Nat) : natOfDigits (Nat.toDigits 10 n) = n :=
  Nat.ofDigitChars_ten_toDigits

/-- The digits of a number are digits. -/
theorem isDigit_of_mem_digits {n : Nat} {c : Char} (h : c ∈ Nat.toDigits 10 n) :
    c.isDigit = true :=
  Nat.isDigit_of_mem_toDigits (by decide) (by decide) h

/-- There is a first digit. -/
theorem exists_digits_cons (n : Nat) :
    ∃ d ds, Nat.toDigits 10 n = d :: ds ∧ d.isDigit = true := by
  obtain ⟨d, ds, hds⟩ := List.exists_cons_of_ne_nil (Nat.toDigits_ne_nil (n := n) (b := 10))
  exact ⟨d, ds, hds, isDigit_of_mem_digits (n := n) (by simp [hds])⟩

/-- The digits of a number other than zero do not start with a zero. -/
theorem head?_toDigits_ne_zero {n : Nat} (h : n ≠ 0) : (Nat.toDigits 10 n).head? ≠ some '0' := by
  induction n using Nat.strongRecOn with
  | ind n ih =>
    rw [Nat.toDigits_eq_if (by decide)]
    split
    · next hlt =>
      have hdigit : ∀ m < 10, m ≠ 0 → [Nat.digitChar m].head? ≠ some '0' := by decide
      exact hdigit n hlt h
    · next hge =>
      rw [List.head?_append_of_ne_nil _ Nat.toDigits_ne_nil]
      exact ih (n / 10) (by omega) (by omega)

/-! ### What may follow a number -/

/-- Whether some characters cannot carry on a number that stands before them. -/
def EndsNumber (rest : List Char) : Prop :=
  ∀ c ∈ rest.head?, c.isDigit = false ∧ c ≠ '.' ∧ c ≠ 'e' ∧ c ≠ 'E'

theorem endsNumber_nil : EndsNumber [] := by
  simp [EndsNumber]

theorem endsNumber_cons {c : Char} {rest : List Char}
    (h : c.isDigit = false ∧ c ≠ '.' ∧ c ≠ 'e' ∧ c ≠ 'E') : EndsNumber (c :: rest) := by
  simpa [EndsNumber] using h

/-- The run of digits stops where the number ends. -/
theorem splitDigits_append {digits rest : List Char} (hd : ∀ c ∈ digits, c.isDigit = true)
    (hr : EndsNumber rest) : splitDigits (digits ++ rest) = (digits, rest) := by
  have hstop : rest.takeWhile Char.isDigit = [] ∧ rest.dropWhile Char.isDigit = rest := by
    cases rest with
    | nil => exact ⟨rfl, rfl⟩
    | cons c rest =>
      have hc : ¬c.isDigit = true := by simp [(hr c rfl).1]
      exact ⟨List.takeWhile_cons_of_neg hc, List.dropWhile_cons_of_neg hc⟩
  rw [splitDigits, List.takeWhile_append_of_pos hd, List.dropWhile_append_of_pos hd, hstop.1,
    hstop.2, List.append_nil]

/-- **The digits of a number are taken as a whole**, and nothing else. -/
theorem wholeDigits?_toDigits (n : Nat) {rest : List Char} (hr : EndsNumber rest) :
    wholeDigits? (Nat.toDigits 10 n ++ rest) = some (Nat.toDigits 10 n, rest) := by
  by_cases hn : n = 0
  · subst hn
    rfl
  obtain ⟨d, ds, hds, hdigit⟩ := exists_digits_cons n
  have hzero : d ≠ '0' := by
    have := head?_toDigits_ne_zero hn
    simpa [hds] using this
  have hsplit := splitDigits_append (fun c hc => isDigit_of_mem_digits (n := n) hc) hr
  rw [hds, List.cons_append] at hsplit
  rw [hds, List.cons_append, wholeDigits?, if_neg (by simpa using hzero), if_pos hdigit, hsplit]

/-- Where a number ends there is no fraction. -/
theorem fractionDigits?_eq_none {rest : List Char} (hr : EndsNumber rest) :
    fractionDigits? rest = none := by
  cases rest with
  | nil => rfl
  | cons c rest =>
    have hc := (hr c rfl).2.1
    rw [fractionDigits?]
    rintro d more ⟨rfl, -⟩
    exact hc rfl

/-- Where a number ends there is no power of ten. -/
theorem power?_eq_none {rest : List Char} (hr : EndsNumber rest) : power? rest = none := by
  cases rest with
  | nil => rfl
  | cons c rest =>
    obtain ⟨-, -, he, hE⟩ := hr c rfl
    rw [power?.eq_def]
    dsimp only
    rw [if_neg (by simp [he, hE])]

/-! ### Integers -/

/-- A sign and the digits of a number read back as an integer. -/
theorem unsignedNumber?_toDigits (negative : Bool) (n : Nat) {rest : List Char}
    (hr : EndsNumber rest) :
    unsignedNumber? negative (Nat.toDigits 10 n ++ rest) =
      some (.int (if negative then -n else n), rest) := by
  rw [unsignedNumber?, wholeDigits?_toDigits n hr]
  simp only [Option.bind_eq_bind, Option.bind_some, fractionDigits?_eq_none hr, power?_eq_none hr,
    natOfDigits_toDigits]
  rfl

/-- The characters of an integer: its digits, behind a sign if it is below zero. -/
theorem intChars_eq (i : Int) :
    (toString i).toList =
      if i < 0 then '-' :: Nat.toDigits 10 i.natAbs else Nat.toDigits 10 i.natAbs := by
  rw [Int.toString_eq_repr, Int.repr_eq_if]
  split <;> split
  · omega
  · rw [Nat.toList_repr]
    congr 1
    omega
  · rw [String.toList_append, Nat.toList_repr]
    have : (-i).toNat = i.natAbs := by omega
    rw [this]
    rfl
  · omega

/-- **A written integer is found again**, whatever its size. -/
theorem number?_intChars (i : Int) {rest : List Char} (hr : EndsNumber rest) :
    number? ((toString i).toList ++ rest) = some (.int i, rest) := by
  rw [intChars_eq]
  split
  · next hneg =>
    rw [List.cons_append, number?, unsignedNumber?_toDigits true i.natAbs hr, if_pos rfl]
    congr 3
    omega
  · next hpos =>
    have hread := unsignedNumber?_toDigits false i.natAbs hr
    have hi : (i.natAbs : Int) = i := by omega
    rw [if_neg Bool.false_ne_true, hi] at hread
    rw [number?, hread]
    intro more hmore
    obtain ⟨d, ds, hds, hdigit⟩ := exists_digits_cons i.natAbs
    rw [hds, List.cons_append] at hmore
    obtain ⟨rfl, -⟩ := List.cons.inj hmore
    exact absurd hdigit (by decide)

/-- **Integers that are written alike are the same.** -/
theorem eq_of_intChars_eq {i j : Int} (h : (toString i).toList = (toString j).toList) : i = j := by
  have hi := number?_intChars i endsNumber_nil
  have hj := number?_intChars j endsNumber_nil
  rw [h, hj] at hi
  simpa using hi.symm

/-- Whether some characters start with a digit, or with a sign and a digit. -/
def startsNumber : List Char → Bool
  | '-' :: d :: _ => d.isDigit
  | d :: _ => d.isDigit
  | [] => false

/-- No word starts like a number, and two of its characters show it. -/
theorem startsNumber_words :
    ∀ w ∈ words, startsNumber w.1.toList = false ∧ 2 ≤ w.1.toList.length := by
  decide

/-- A number starts with a sign or a digit. -/
theorem exists_cons_of_startsNumber {cs : List Char} (h : startsNumber cs = true) :
    ∃ c rest, cs = c :: rest ∧ (c = '-' ∨ c.isDigit = true) := by
  match cs with
  | [] => exact Bool.noConfusion h
  | c :: rest =>
    refine ⟨c, rest, rfl, ?_⟩
    by_cases hc : c = '-'
    · exact Or.inl hc
    · rw [startsNumber] at h
      · exact Or.inr h
      · intro _ _ hsign
        exact absurd hsign hc

/-- A sign or a digit is no other character. -/
theorem ne_of_signOrDigit {c d : Char} (hc : c = '-' ∨ c.isDigit = true)
    (hd : d ≠ '-' ∧ d.isDigit = false) : c ≠ d := by
  rintro rfl
  rcases hc with rfl | hc
  · exact hd.1 rfl
  · rw [hd.2] at hc
    exact Bool.noConfusion hc

/-- An integer is written with a sign and digits. -/
theorem signOrDigit_of_mem_intChars {i : Int} {c : Char} (h : c ∈ (toString i).toList) :
    c = '-' ∨ c.isDigit = true := by
  rw [intChars_eq] at h
  split at h
  · exact (List.mem_cons.1 h).imp_right isDigit_of_mem_digits
  · exact .inr (isDigit_of_mem_digits h)

/-- Two characters decide whether a number starts. -/
theorem startsNumber_append {cs : List Char} (h : 2 ≤ cs.length) (rest : List Char) :
    startsNumber (cs ++ rest) = startsNumber cs := by
  match cs, h with
  | c :: d :: cs, _ =>
    by_cases hc : c = '-'
    · subst hc
      rfl
    · rw [List.cons_append, List.cons_append, startsNumber, startsNumber]
      all_goals
        intro _ _ hsign
        exact absurd hsign hc

/-- What starts like a number is no word. -/
theorem word?_eq_none {cs : List Char} (h : startsNumber cs = true) : word? cs = none := by
  rw [word?, List.findSome?_eq_none_iff]
  rintro ⟨word, v⟩ hw
  dsimp only
  rw [if_neg]
  intro hprefix
  obtain ⟨rest, rfl⟩ := List.isPrefixOf_iff_prefix.mp hprefix
  obtain ⟨hstart, hlength⟩ := startsNumber_words _ hw
  rw [startsNumber_append hlength, hstart] at h
  exact Bool.noConfusion h

/-- The characters of an integer start like a number. -/
theorem startsNumber_intChars (i : Int) (rest : List Char) :
    startsNumber ((toString i).toList ++ rest) = true := by
  obtain ⟨d, ds, hds, hdigit⟩ := exists_digits_cons i.natAbs
  rw [intChars_eq, hds]
  split
  · exact hdigit
  · rw [List.cons_append, startsNumber, hdigit]
    rintro _ _ rfl
    exact absurd hdigit (by decide)

end LintReport.Json
