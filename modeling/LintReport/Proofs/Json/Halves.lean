import LintReport.Proofs.Json.Quoted

/-!
# Halves of Surrogate Pairs

A code escape is four digits, and so a code unit of UTF-16: a character, or half of a pair that is
one. A half on its own is no character, and the reader has no way to keep it. This module says of
which texts that can be disregarded: where halves stand in pairs, every string that is read has the
code units that are written.

Nothing is said of a text with a half on its own, except that it is one.

## Main definitions

* `PairsHalves`: texts without a half on its own.
* `codeUnits`: the code units of a character.

## Main results

* `codeUnits_joinUnits`: no code unit is lost where halves stand in pairs.
* `stringBody_codeUnits`: **a string has the code units that are written**, in a text without a half
  on its own.
-/

namespace LintReport.Json

open Text (doubleQuote backslash)

/-! ### Texts -/

/-- Whether the halves of surrogate pairs in the escapes of some characters stand in pairs. `opened`
tells whether the first half of a pair has just been read. The reader stops at an escape that is
incomplete. -/
def pairsHalves (opened : Bool) : List Char → Bool
  | [] => !opened
  | c :: rest =>
    if c == backslash then
      match rest with
      | [] => !opened
      | e :: after =>
        if e == 'u' then
          match after with
          | d₁ :: d₂ :: d₃ :: d₄ :: more =>
            match Text.hexNumber? [d₁, d₂, d₃, d₄] with
            | some n => isLowSurrogate n == opened && pairsHalves (isHighSurrogate n) more
            | none => !opened
          | _ => !opened
        else !opened && pairsHalves false after
    else !opened && pairsHalves false rest

/-- Whether no escape in a text is half of a surrogate pair on its own. -/
def PairsHalves (text : String) : Prop := pairsHalves false text.toList = true

instance (text : String) : Decidable (PairsHalves text) := inferInstanceAs (Decidable (_ = true))

/-! ### Code units -/

/-- The code units of a character: one, or two that form a pair. -/
def codeUnits (c : Char) : List Nat :=
  if c.toNat < 0x10000 then [c.toNat] else [highHalf c.toNat, lowHalf c.toNat]

/-- The code units of a piece of a string. -/
def StringUnit.codeUnits : StringUnit → List Nat
  | .char c => Json.codeUnits c
  | .code n => [n]

/-- Whether the codes among the pieces of a string are code units whose halves stand in pairs.
`opened` tells whether the piece before was the first half of a pair. -/
def pairsCodes (opened : Bool) : List StringUnit → Bool
  | [] => !opened
  | .char _ :: rest => !opened && pairsCodes false rest
  | .code n :: rest =>
    n < 0x10000 && isLowSurrogate n == opened && pairsCodes (isHighSurrogate n) rest

/-- A code that is no half is the one code unit of its character. -/
theorem codeUnits_charOfCode {n : Nat} (hn : n < 0x10000) (hhigh : isHighSurrogate n = false)
    (hlow : isLowSurrogate n = false) : codeUnits (charOfCode n) = [n] := by
  simp only [isHighSurrogate, isLowSurrogate, Bool.and_eq_false_iff, decide_eq_false_iff_not]
    at hhigh hlow
  have hvalid : n.isValidChar := by
    rw [Nat.isValidChar]
    omega
  have hcode : (Char.ofNat n).toNat = n := by
    rw [Char.ofNat, dif_pos hvalid]
    rfl
  rw [charOfCode, if_pos hvalid, codeUnits, hcode, if_pos hn]

/-- Two halves are the code units of their character. -/
theorem codeUnits_pair {high low : Nat} (hhigh : isHighSurrogate high = true)
    (hlow : isLowSurrogate low = true) :
    codeUnits (Char.ofNat (0x10000 + (high - 0xD800) * 0x400 + (low - 0xDC00))) = [high, low] := by
  simp only [isHighSurrogate, isLowSurrogate, Bool.and_eq_true, decide_eq_true_eq] at hhigh hlow
  have hvalid : (0x10000 + (high - 0xD800) * 0x400 + (low - 0xDC00)).isValidChar := by
    rw [Nat.isValidChar]
    omega
  have hcode : (Char.ofNat (0x10000 + (high - 0xD800) * 0x400 + (low - 0xDC00))).toNat =
      0x10000 + (high - 0xD800) * 0x400 + (low - 0xDC00) := by
    rw [Char.ofNat, dif_pos hvalid]
    rfl
  rw [codeUnits, hcode, if_neg (by omega), highHalf, lowHalf, List.cons.injEq, List.cons.injEq]
  exact ⟨by omega, by omega, rfl⟩

/-- **No code unit is lost** in joining pieces whose halves stand in pairs. -/
theorem codeUnits_joinUnits {units : List StringUnit} (h : pairsCodes false units = true) :
    (joinUnits units).flatMap codeUnits = units.flatMap StringUnit.codeUnits := by
  fun_induction joinUnits units with
  | case1 => rfl
  | case2 c rest ih =>
    rw [List.flatMap_cons, List.flatMap_cons, ih (by simpa [pairsCodes] using h)]
    rfl
  | case3 high low rest hpair ih =>
    simp only [Bool.and_eq_true] at hpair
    have hrest : pairsCodes false rest = true := by
      have hnotHigh : isHighSurrogate low = false := by
        have := hpair.2
        simp only [isHighSurrogate, isLowSurrogate, Bool.and_eq_true, decide_eq_true_eq,
          Bool.and_eq_false_iff, decide_eq_false_iff_not] at this ⊢
        omega
      simp only [pairsCodes, Bool.and_eq_true, hnotHigh] at h
      exact h.2.2
    rw [List.flatMap_cons, codeUnits_pair hpair.1 hpair.2, ih hrest]
    rfl
  | case4 high low rest hpair ih =>
    simp only [pairsCodes, Bool.and_eq_true, beq_iff_eq, decide_eq_true_eq] at h
    obtain ⟨⟨hbound, hlow⟩, ⟨hbound', hnext⟩, hrest⟩ := h
    have hhigh : isHighSurrogate high = false := by
      by_contra hhigh
      rw [Bool.not_eq_false] at hhigh
      exact hpair (by rw [hnext, hhigh]; rfl)
    have hafter : pairsCodes false (.code low :: rest) = true := by
      simp [pairsCodes, hbound', hnext, hhigh, hrest]
    rw [List.flatMap_cons, codeUnits_charOfCode hbound hhigh hlow, ih hafter]
    rfl
  | case5 n rest hsingle ih =>
    simp only [pairsCodes, Bool.and_eq_true, beq_iff_eq, decide_eq_true_eq] at h
    obtain ⟨⟨hbound, hlow⟩, hrest⟩ := h
    have hhigh : isHighSurrogate n = false := by
      cases rest with
      | nil => simpa [pairsCodes] using hrest
      | cons piece rest =>
        cases piece with
        | char c => simp_all [pairsCodes]
        | code m => exact absurd rfl (hsingle m rest)
    rw [hhigh] at hrest
    rw [List.flatMap_cons, codeUnits_charOfCode hbound hhigh hlow, ih hrest]
    rfl

/-! ### Strings -/

/-- A hexadecimal digit is a number below 16. -/
theorem hexValue?_lt {c : Char} {d : Nat} (h : Text.hexValue? c = some d) : d < 16 := by
  rw [Text.hexValue?] at h
  split at h
  · next hc =>
    cases h
    have hle : c.toNat ≤ 57 := hc.2
    omega
  split at h
  · next hc =>
    cases h
    have hle : c.toNat ≤ 102 := hc.2
    omega
  split at h
  · next hc =>
    cases h
    have hle : c.toNat ≤ 70 := hc.2
    omega
  · cases h

/-- A number of some digits is below the power of 16 for them. -/
theorem hexNumber?_lt {cs : List Char} {n : Nat} (h : Text.hexNumber? cs = some n) :
    n < 16 ^ cs.length := by
  induction cs using List.reverseRecOn generalizing n with
  | nil =>
    cases h
    decide
  | append_singleton cs c ih =>
    simp only [Text.hexNumber?, List.foldl_append, List.foldl_cons, List.foldl_nil] at h
    split at h
    · next m d hm hd =>
      cases h
      have hm := ih hm
      have hd := hexValue?_lt hd
      rw [List.length_append, List.length_singleton, pow_succ]
      omega
    · cases h

/-- A piece behind others is looked at in the state that they leave. -/
theorem pairsCodes_reverse_cons {done : List StringUnit} {piece : StringUnit}
    {opened after : Bool}
    (hdone : ∀ tail, pairsCodes false (done.reverse ++ tail) = pairsCodes opened tail)
    (hpiece : ∀ tail, pairsCodes opened (piece :: tail) = pairsCodes after tail)
    (tail : List StringUnit) :
    pairsCodes false ((piece :: done).reverse ++ tail) = pairsCodes after tail := by
  rw [List.reverse_cons, List.append_assoc, List.singleton_append, hdone, hpiece]

/-- **The halves in the pieces of a string stand in pairs** where those in its text do. -/
theorem pairsCodes_stringUnits {start : Nat} {done units : List StringUnit} {cs rest : List Char}
    (h : stringUnits start done cs = .ok (units, rest)) {opened : Bool}
    (hcs : pairsHalves opened cs = true)
    (hdone : ∀ tail, pairsCodes false (done.reverse ++ tail) = pairsCodes opened tail) :
    pairsCodes false units = true ∧ pairsHalves false rest = true := by
  have hchar (c : Char) (tail : List StringUnit) :
      pairsCodes false (.char c :: tail) = pairsCodes false tail := by
    rw [pairsCodes, Bool.not_false, Bool.true_and]
  fun_induction stringUnits start done cs generalizing opened with
  | case2 done c after hquote =>
    -- the closing quote: the pieces are complete, and no half is open
    cases h
    have hback : ¬(c == backslash) = true := by
      rw [eq_of_beq hquote]
      decide
    rw [pairsHalves.eq_def] at hcs
    simp only [hback, Bool.false_eq_true, if_false, Bool.and_eq_true, Bool.not_eq_true'] at hcs
    obtain ⟨rfl, hrest⟩ := hcs
    exact ⟨by simpa [pairsCodes] using hdone [], hrest⟩
  | case4 done c hquote hback e hu d₁ d₂ d₃ d₄ next more n hn ih =>
    rw [pairsHalves.eq_def] at hcs
    simp only [hback, hu, hn, if_true, Bool.and_eq_true, beq_iff_eq] at hcs
    obtain ⟨hlow, hmore⟩ := hcs
    have hbound : n < 0x10000 := Nat.lt_of_lt_of_eq (hexNumber?_lt hn) (by norm_num)
    refine ih h hmore (pairsCodes_reverse_cons hdone fun tail => ?_)
    simp [pairsCodes, hbound, hlow]
  | case7 done c hquote hback e after hu meant hmeant ih =>
    rw [pairsHalves.eq_def] at hcs
    simp only [hback, hu, Bool.false_eq_true, if_true, if_false, Bool.and_eq_true,
      Bool.not_eq_true'] at hcs
    obtain ⟨rfl, hafter⟩ := hcs
    exact ih h hafter (pairsCodes_reverse_cons hdone (hchar meant))
  | case10 done c after hquote hback hcontrol ih =>
    rw [pairsHalves.eq_def] at hcs
    simp only [hback, Bool.false_eq_true, if_false, Bool.and_eq_true, Bool.not_eq_true'] at hcs
    obtain ⟨rfl, hafter⟩ := hcs
    exact ih h hafter (pairsCodes_reverse_cons hdone (hchar c))
  | _ => cases h

/-- **A string has the code units that are written**, in a text without a half on its own; and what
follows it has no half on its own either. -/
theorem stringBody_codeUnits {cs rest : List Char} {s : String}
    (h : stringBody cs = .ok (s, rest)) (hcs : pairsHalves false cs = true) :
    ∃ units, stringUnits (cs.length + 1) [] cs = .ok (units, rest) ∧
      s.toList.flatMap codeUnits = units.flatMap StringUnit.codeUnits ∧
      pairsHalves false rest = true := by
  rw [stringBody] at h
  cases hunits : stringUnits (cs.length + 1) [] cs with
  | error fault =>
    rw [hunits] at h
    cases h
  | ok found =>
    obtain ⟨units, after⟩ := found
    rw [hunits] at h
    cases h
    obtain ⟨hpairs, hrest⟩ := pairsCodes_stringUnits hunits hcs fun _ => rfl
    exact ⟨units, rfl, by rw [String.toList_ofList, codeUnits_joinUnits hpairs], hrest⟩

end LintReport.Json
