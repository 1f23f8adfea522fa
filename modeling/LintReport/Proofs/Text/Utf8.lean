import LintReport.Rules.Catalogue
import Mathlib.Tactic

/-!
# Writing and Reading UTF-8

The reader takes the octets of one character at a time. The first octet tells how many follow, and
the bounds on the code of a character are exactly those that the reader asks for at that length, so
no character is refused for being overlong or a surrogate.

## Main results

* `decodeChars?_encodeChar`: the octets of a character are taken as that character.
* `decode?_encode`: **an encoded text reads back**.
* `FileTree.readText_eq_ok`: so does a file that holds one, if no line ends are unified in it.
-/

namespace LintReport

namespace Text.Utf8

/-- An octet below 256 keeps its number. -/
theorem toNat_octet {n : Nat} (h : n < 256) : (UInt8.ofNat n).toNat = n := by
  rw [UInt8.toNat_ofNat']
  exact Nat.mod_eq_of_lt h

/-- A continuation octet holds its six bits. -/
theorem continuation?_octet (k : Nat) :
    continuation? (UInt8.ofNat (0x80 + k % 64)) = some (k % 64) := by
  have hk : k % 64 < 64 := Nat.mod_lt k (by decide)
  rw [continuation?, toNat_octet (by omega), if_pos (by omega), Nat.add_sub_cancel_left]

/-- The code of a character makes that character, if it is not too small. -/
theorem charFrom?_toNat {c : Char} {least code : Nat} (hleast : least ≤ c.toNat)
    (hcode : code = c.toNat) : charFrom? least code = some c := by
  rw [hcode, charFrom?, if_pos ⟨hleast, c.valid⟩, Char.ofNat_toNat]

/-! ### Sequences by their length -/

section Sequences

variable {b b₁ b₂ b₃ : UInt8} {k₁ k₂ k₃ : Nat} {c : Char} (rest : List UInt8)

/-- An octet below 0x80 stands for itself. -/
theorem decodeChars?_one (hb : b.toNat < 0x80) (hc : Char.ofNat b.toNat = c) :
    decodeChars? (b :: rest) = (decodeChars? rest).map (c :: ·) := by
  rw [decodeChars?.eq_def]
  dsimp only
  rw [if_pos hb, hc]

/-- An octet from 0xC0 on takes one more. -/
theorem decodeChars?_two (hb : 0xC0 ≤ b.toNat ∧ b.toNat < 0xE0)
    (h₁ : continuation? b₁ = some k₁)
    (hc : charFrom? 0x80 ((b.toNat - 0xC0) * 64 + k₁) = some c) :
    decodeChars? (b :: b₁ :: rest) = (decodeChars? rest).map (c :: ·) := by
  rw [decodeChars?.eq_def]
  dsimp only
  rw [if_neg (by omega), if_neg (by omega), h₁]
  dsimp only
  rw [if_pos hb.2, hc]

/-- An octet from 0xE0 on takes two more. -/
theorem decodeChars?_three (hb : 0xE0 ≤ b.toNat ∧ b.toNat < 0xF0)
    (h₁ : continuation? b₁ = some k₁) (h₂ : continuation? b₂ = some k₂)
    (hc : charFrom? 0x800 ((b.toNat - 0xE0) * 4096 + k₁ * 64 + k₂) = some c) :
    decodeChars? (b :: b₁ :: b₂ :: rest) = (decodeChars? rest).map (c :: ·) := by
  rw [decodeChars?.eq_def]
  dsimp only
  rw [if_neg (by omega), if_neg (by omega), h₁]
  dsimp only
  rw [if_neg (by omega), h₂]
  dsimp only
  rw [if_pos hb.2, hc]

/-- An octet from 0xF0 on takes three more. -/
theorem decodeChars?_four (hb : 0xF0 ≤ b.toNat) (h₁ : continuation? b₁ = some k₁)
    (h₂ : continuation? b₂ = some k₂) (h₃ : continuation? b₃ = some k₃)
    (hc : charFrom? 0x10000 ((b.toNat - 0xF0) * 262144 + k₁ * 4096 + k₂ * 64 + k₃) = some c) :
    decodeChars? (b :: b₁ :: b₂ :: b₃ :: rest) = (decodeChars? rest).map (c :: ·) := by
  -- unnamed, the reading of the last code would be evaluated at its bound, in unary
  obtain ⟨read, hread⟩ : ∃ read, read = charFrom? 0x10000 := ⟨_, rfl⟩
  rw [decodeChars?.eq_def]
  rw [← hread] at hc ⊢
  dsimp only
  rw [if_neg (by omega), if_neg (by omega), h₁]
  dsimp only
  rw [if_neg (by omega), h₂]
  dsimp only
  rw [if_neg (by omega), h₃]
  dsimp only
  rw [hc]

end Sequences

/-- **The octets of a character are taken as that character**, whatever follows them. -/
theorem decodeChars?_encodeChar (c : Char) (rest : List UInt8) :
    decodeChars? (encodeChar c ++ rest) = (decodeChars? rest).map (c :: ·) := by
  have hmax : c.toNat < 0x110000 := by
    rcases c.valid with h | h
    · exact Nat.lt_trans h (by decide)
    · exact h.2
  unfold encodeChar
  dsimp only
  split
  · next h1 =>
    have hb : (UInt8.ofNat c.toNat).toNat = c.toNat := toNat_octet (by omega)
    exact decodeChars?_one rest (by omega) (by rw [hb, Char.ofNat_toNat])
  next h1 =>
  split
  · next h2 =>
    have hb : (UInt8.ofNat (0xC0 + c.toNat / 64)).toNat = 0xC0 + c.toNat / 64 :=
      toNat_octet (by omega)
    exact decodeChars?_two rest (by omega) (continuation?_octet _)
      (charFrom?_toNat (Nat.le_of_not_lt h1) (by omega))
  next h2 =>
  split
  · next h3 =>
    have hb : (UInt8.ofNat (0xE0 + c.toNat / 4096)).toNat = 0xE0 + c.toNat / 4096 :=
      toNat_octet (by omega)
    exact decodeChars?_three rest (by omega) (continuation?_octet _) (continuation?_octet _)
      (charFrom?_toNat (Nat.le_of_not_lt h2) (by omega))
  · next h3 =>
    have hb : (UInt8.ofNat (0xF0 + c.toNat / 262144)).toNat = 0xF0 + c.toNat / 262144 :=
      toNat_octet (by omega)
    exact decodeChars?_four rest (by omega) (continuation?_octet _) (continuation?_octet _)
      (continuation?_octet _) (charFrom?_toNat (Nat.le_of_not_lt h3) (by omega))

/-- Encoded characters read back. -/
theorem decodeChars?_encodeChars (cs : List Char) : decodeChars? (encodeChars cs) = some cs := by
  induction cs with
  | nil => rfl
  | cons c cs ih =>
    rw [encodeChars, List.flatMap_cons, decodeChars?_encodeChar, ← encodeChars, ih]
    rfl

/-- **An encoded text reads back.** -/
theorem decode?_encode (s : String) : decode? (encode s) = some s := by
  rw [decode?, encode, decodeChars?_encodeChars, Option.map_some, String.ofList_toList]

end Text.Utf8

/-! ### Files -/

/-- Nothing is unified where there is no carriage return. -/
theorem Text.unifyNewlines_of_notMem {cs : List Char} (h : '\r' ∉ cs) :
    Text.unifyNewlines cs = cs := by
  fun_induction Text.unifyNewlines cs with
  | case1 => rfl
  | case2 => exact absurd List.mem_cons_self h
  | case3 c rest _ ih =>
    rw [List.mem_cons, not_or] at h
    rw [if_neg (by simpa using Ne.symm h.1), ih h.2]

/-- **A file that holds a text reads back**, if the text has no carriage returns. -/
theorem FileTree.readText_eq_ok {t : FileTree} {p : Path} {text : String}
    (hfile : t.read p = .ok (Text.Utf8.encode text)) (hreturn : '\r' ∉ text.toList) :
    t.readText p = .ok text := by
  rw [FileTree.readText, hfile, Text.Utf8.encode]
  dsimp only
  rw [Text.Utf8.decodeChars?_encodeChars]
  dsimp only
  rw [Text.unifyNewlines_of_notMem hreturn, String.ofList_toList]

end LintReport
