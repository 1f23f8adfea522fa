import LintReport.Json.Parser
import LintReport.Json.Printer
import Mathlib.Tactic

/-!
# Reading Quoted Strings

What the writer puts between the quotes of a string, the reader turns back into the same
characters. The reader works in two steps: it first cuts the text into units, single characters and
code escapes, and then joins the two halves of a surrogate pair. `QuotedForm` is the meeting point:
it lists the four ways in which a character is written, each with the units that the reader cuts.

## Main results

* `hexNumber?_hexPad`: four hexadecimal digits read back as their number.
* `exists_quotedForm`: the writer uses one of the four forms for every character.
* `QuotedForm.stringUnits_eq`, `QuotedForm.joinUnits_append`: the two steps of the reader undo each
  form.
* `stringBody_quoted`: **a quoted string reads back**, whatever follows it.
* `isPrintableAscii_quoted`: a quoted string is printable ASCII.
-/

namespace LintReport.Json

open Text (doubleQuote backslash)

/-! ### Hexadecimal digits -/

/-- The digit of a number below 16 has that number as its value. -/
theorem hexValue?_hexDigit : ∀ d < 16, Text.hexValue? (Text.hexDigit d) = some d := by
  decide

/-- **Four digits read back** as their number, if it fits into them. -/
theorem hexNumber?_hexPad {n : Nat} (h : n < 0x10000) :
    Text.hexNumber? (Text.hexPad 4 n) = some n := by
  have hdigit (k : Nat) : Text.hexValue? (Text.hexDigit (k % 16)) = some (k % 16) :=
    hexValue?_hexDigit _ (Nat.mod_lt _ (by decide))
  simp only [Text.hexPad, Text.hexNumber?, List.nil_append, List.cons_append, List.foldl_cons,
    List.foldl_nil, hdigit, Option.some.injEq]
  omega

/-! ### The forms of a character -/

/-- Whether a character is printable ASCII. -/
def IsPrintableAscii (c : Char) : Prop := 0x20 ≤ c.toNat ∧ c.toNat < 0x7F

instance (c : Char) : Decidable (IsPrintableAscii c) := inferInstanceAs (Decidable (_ ∧ _))

/-- The codes of characters leave out the surrogates. -/
theorem toNat_cases (c : Char) :
    c.toNat < 0xD800 ∨ (0xDFFF < c.toNat ∧ c.toNat < 0x110000) :=
  c.valid

/-- The first half of the surrogate pair of a code. -/
def highHalf (n : Nat) : Nat := 0xD800 + (n - 0x10000) / 0x400

/-- The second half of the surrogate pair of a code. -/
def lowHalf (n : Nat) : Nat := 0xDC00 + (n - 0x10000) % 0x400

/-- **The forms of a character** inside quotes: what is written for it, and the units that are cut
from that. -/
inductive QuotedForm (c : Char) : List Char → List StringUnit → Prop
  /-- A backslash and a letter or a mark. -/
  | letter {e : Char} : e ≠ 'u' → IsPrintableAscii e → shortEscape? e = some c →
      QuotedForm c [backslash, e] [.char c]
  /-- The character itself. -/
  | plain : c ≠ doubleQuote → c ≠ backslash → IsPrintableAscii c → QuotedForm c [c] [.char c]
  /-- One code escape. -/
  | code : c.toNat < 0x10000 → QuotedForm c (codeEscape c.toNat) [.code c.toNat]
  /-- The code escapes of a surrogate pair. -/
  | pair : 0x10000 ≤ c.toNat →
      QuotedForm c (codeEscape (highHalf c.toNat) ++ codeEscape (lowHalf c.toNat))
        [.code (highHalf c.toNat), .code (lowHalf c.toNat)]

/-- Every character is written in one of the forms. -/
theorem exists_quotedForm (c : Char) : ∃ units, QuotedForm c (quotedChar c) units := by
  unfold quotedChar
  dsimp only
  split
  · next h =>
    rcases (by simpa using h : c = doubleQuote ∨ c = backslash) with rfl | rfl
    · exact ⟨_, .letter (by decide) (by decide) rfl⟩
    · exact ⟨_, .letter (by decide) (by decide) rfl⟩
  next hquote =>
  split
  · next h =>
    obtain rfl : c = '\n' := eq_of_beq h
    exact ⟨_, .letter (by decide) (by decide) rfl⟩
  split
  · next h =>
    obtain rfl : c = '\r' := eq_of_beq h
    exact ⟨_, .letter (by decide) (by decide) rfl⟩
  split
  · next h =>
    obtain rfl : c = '\t' := eq_of_beq h
    exact ⟨_, .letter (by decide) (by decide) rfl⟩
  split
  · next h =>
    obtain rfl : c = '\x0c' := Char.toNat_inj.1 (eq_of_beq h)
    exact ⟨_, .letter (by decide) (by decide) rfl⟩
  split
  · next h =>
    obtain rfl : c = '\x08' := Char.toNat_inj.1 (eq_of_beq h)
    exact ⟨_, .letter (by decide) (by decide) rfl⟩
  split
  · next h =>
    obtain ⟨hq, hb⟩ : c ≠ doubleQuote ∧ c ≠ backslash := by simpa using hquote
    exact ⟨_, .plain hq hb (by simpa [IsPrintableAscii] using h)⟩
  split
  · next h => exact ⟨_, .code h⟩
  · next h => exact ⟨_, .pair (Nat.le_of_not_lt h)⟩

/-! ### Cutting a text into units -/

/-- A code escape is cut off as one unit. One more character has to follow it, which inside quotes
is always there. -/
theorem stringUnits_codeEscape {n : Nat} (h : n < 0x10000) (opened : Nat) (done : List StringUnit)
    (next : Char) (more : List Char) :
    stringUnits opened done (codeEscape n ++ next :: more) =
      stringUnits opened (.code n :: done) (next :: more) := by
  have hread := hexNumber?_hexPad h
  simp only [Text.hexPad, List.nil_append, List.cons_append] at hread
  simp only [codeEscape, Text.hexPad, List.nil_append, List.cons_append]
  rw [stringUnits, if_neg (by decide), if_pos (by decide)]
  simp only [beq_self_eq_true, if_true, hread]

/-- **What is written for a character is cut into its units.** -/
theorem QuotedForm.stringUnits_eq {c : Char} {written : List Char} {units : List StringUnit}
    (h : QuotedForm c written units) (opened : Nat) (done : List StringUnit) (next : Char)
    (more : List Char) :
    stringUnits opened done (written ++ next :: more) =
      stringUnits opened (units.reverse ++ done) (next :: more) := by
  cases h with
  | @letter e hu _ hshort =>
    rw [List.cons_append, List.singleton_append, stringUnits.eq_def]
    dsimp only
    rw [if_neg (by decide), if_pos (by decide), if_neg (by simpa using hu), hshort]
    rfl
  | plain hq hb hn =>
    rw [List.singleton_append, stringUnits.eq_def]
    dsimp only
    rw [if_neg (by simpa using hq), if_neg (by simpa using hb), if_neg (Nat.not_lt.2 hn.1)]
    rfl
  | code hn => exact stringUnits_codeEscape hn opened done next more
  | pair hn =>
    have hc := toNat_cases c
    have hhigh : highHalf c.toNat < 0x10000 := by
      unfold highHalf
      omega
    have hlow : lowHalf c.toNat < 0x10000 := by
      unfold lowHalf
      omega
    rw [List.append_assoc]
    -- the second escape is what has to follow the first one
    have hnext : codeEscape (lowHalf c.toNat) ++ next :: more =
        backslash :: ('u' :: Text.hexPad 4 (lowHalf c.toNat) ++ next :: more) := rfl
    rw [hnext, stringUnits_codeEscape hhigh, ← hnext, stringUnits_codeEscape hlow]
    rfl

/-- The closing quote ends the units. -/
theorem stringUnits_doubleQuote (opened : Nat) (done : List StringUnit) (rest : List Char) :
    stringUnits opened done (doubleQuote :: rest) = .ok (done.reverse, rest) := by
  rw [stringUnits.eq_def]
  dsimp only
  rw [if_pos (by decide)]

/-! ### Joining units -/

/-- A code that is no first half of a surrogate pair stands alone. -/
theorem joinUnits_code {n : Nat} (h : isHighSurrogate n = false) (units : List StringUnit) :
    joinUnits (.code n :: units) = charOfCode n :: joinUnits units := by
  cases units with
  | nil => rfl
  | cons u units =>
    cases u with
    | char d => rfl
    | code low => rw [joinUnits, h, Bool.false_and, if_neg Bool.false_ne_true]

/-- **The units of a character are joined to it.** -/
theorem QuotedForm.joinUnits_append {c : Char} {written : List Char} {units : List StringUnit}
    (h : QuotedForm c written units) (more : List StringUnit) :
    joinUnits (units ++ more) = c :: joinUnits more := by
  have hc := toNat_cases c
  cases h with
  | letter => rfl
  | plain => rfl
  | code hn =>
    have hhigh : isHighSurrogate c.toNat = false := by
      simp only [isHighSurrogate, Bool.and_eq_false_iff, decide_eq_false_iff_not]
      omega
    have hvalid : c.toNat.isValidChar := c.valid
    rw [List.singleton_append, joinUnits_code hhigh, charOfCode, if_pos hvalid, Char.ofNat_toNat]
  | pair hn =>
    have hhalves : (isHighSurrogate (highHalf c.toNat) && isLowSurrogate (lowHalf c.toNat)) =
        true := by
      simp only [isHighSurrogate, isLowSurrogate, Bool.and_eq_true, decide_eq_true_eq]
      unfold highHalf lowHalf
      omega
    have hcode : 0x10000 + (highHalf c.toNat - 0xD800) * 0x400 + (lowHalf c.toNat - 0xDC00) =
        c.toNat := by
      simp only [highHalf, lowHalf]
      omega
    rw [List.cons_append, List.singleton_append, joinUnits, if_pos hhalves, hcode,
      Char.ofNat_toNat]

/-! ### Whole strings -/

/-- The characters between quotes are cut into units that are joined to the same characters. -/
theorem exists_units_quotedChars (cs : List Char) :
    ∃ units, joinUnits units = cs ∧ ∀ (opened : Nat) (done : List StringUnit) (rest : List Char),
      stringUnits opened done (cs.flatMap quotedChar ++ doubleQuote :: rest) =
        .ok (done.reverse ++ units, rest) := by
  induction cs with
  | nil =>
    refine ⟨[], rfl, fun opened done rest => ?_⟩
    rw [List.append_nil]
    exact stringUnits_doubleQuote opened done rest
  | cons c cs ih =>
    obtain ⟨first, hfirst⟩ := exists_quotedForm c
    obtain ⟨units, hjoin, hcut⟩ := ih
    refine ⟨first ++ units, by rw [hfirst.joinUnits_append, hjoin], fun opened done rest => ?_⟩
    obtain ⟨next, more, hnext⟩ :
        ∃ next more, cs.flatMap quotedChar ++ doubleQuote :: rest = next :: more :=
      List.exists_cons_of_ne_nil (by simp)
    rw [List.flatMap_cons, List.append_assoc, hnext, hfirst.stringUnits_eq, ← hnext, hcut,
      List.reverse_append, List.reverse_reverse, List.append_assoc]

/-- **A quoted string reads back**, whatever follows it. -/
theorem stringBody_quoted (s : String) (rest : List Char) :
    stringBody (s.toList.flatMap quotedChar ++ doubleQuote :: rest) = .ok (s, rest) := by
  obtain ⟨units, hjoin, hcut⟩ := exists_units_quotedChars s.toList
  rw [stringBody, hcut, List.reverse_nil, List.nil_append]
  change Except.ok (String.ofList (joinUnits units), rest) = Except.ok (s, rest)
  rw [hjoin, String.ofList_toList]

/-! ### What a quoted string is made of -/

/-- A hexadecimal digit is printable. -/
theorem isPrintableAscii_hexDigit : ∀ d < 16, IsPrintableAscii (Text.hexDigit d) := by
  decide

/-- A code escape is printable. -/
theorem isPrintableAscii_codeEscape {n : Nat} {c : Char} (h : c ∈ codeEscape n) :
    IsPrintableAscii c := by
  have hdigit (k : Nat) : IsPrintableAscii (Text.hexDigit (k % 16)) :=
    isPrintableAscii_hexDigit _ (Nat.mod_lt _ (by decide))
  simp only [codeEscape, Text.hexPad, List.nil_append, List.cons_append, List.mem_cons,
    List.not_mem_nil, or_false] at h
  rcases h with rfl | rfl | rfl | rfl | rfl | rfl
  · decide
  · decide
  all_goals exact hdigit _

/-- What is written for a character is printable. -/
theorem QuotedForm.isPrintableAscii {c : Char} {written : List Char} {units : List StringUnit}
    (h : QuotedForm c written units) {d : Char} (hd : d ∈ written) : IsPrintableAscii d := by
  cases h with
  | letter _ he _ =>
    rcases List.mem_pair.1 hd with rfl | rfl
    · decide
    · exact he
  | plain _ _ hc =>
    obtain rfl := List.mem_singleton.1 hd
    exact hc
  | code => exact isPrintableAscii_codeEscape hd
  | pair =>
    rcases List.mem_append.1 hd with hd | hd <;> exact isPrintableAscii_codeEscape hd

/-- **A quoted string is printable ASCII**, whatever its characters are. -/
theorem isPrintableAscii_quoted {s : String} {d : Char} (h : d ∈ quoted s) :
    IsPrintableAscii d := by
  have hquote : IsPrintableAscii doubleQuote := by decide
  simp only [quoted, List.cons_append, List.mem_cons, List.mem_append, List.mem_flatMap,
    List.not_mem_nil, or_false] at h
  rcases h with rfl | ⟨c, -, hd⟩ | rfl
  · exact hquote
  · obtain ⟨units, hform⟩ := exists_quotedForm c
    exact hform.isPrintableAscii hd
  · exact hquote

end LintReport.Json
