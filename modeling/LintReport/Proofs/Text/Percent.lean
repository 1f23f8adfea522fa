import LintReport.Proofs.Text.Blank
import LintReport.Proofs.Text.Utf8
import LintReport.Text.Percent

/-!
# Reading Percent Encoding

A percent sign and two digits stand for one octet, and any other character stands for its own
octets. The writer uses two forms only: a mark that a path may hold, which is one octet and stands
for it, and a percent sign with two upper-case digits. The reader undoes each of them, octet by
octet, and the octets of a text are then read as UTF-8.

## Main definitions

* `percentDecode?`: the text that a percent-encoded text stands for.
* `PathForm`: texts of marks and of percent signs with two upper-case digits.

## Main results

* `percentDecode?_percentEncode`: **a percent-encoded text reads back**.
* `pathForm_percentEncode`: it has the form that a path may have in an address.
* `PathForm.mem`: what a text of this form may hold.
-/

namespace LintReport.Text

/-! ### Reading -/

/-- The octets that characters stand for, or `none` where a percent sign has no two digits. -/
def percentOctets? : List Char → Option (List UInt8)
  | [] => some []
  | '%' :: high :: low :: rest =>
    match hexValue? high, hexValue? low with
    | some h, some l => (percentOctets? rest).map (UInt8.ofNat (16 * h + l) :: ·)
    | _, _ => none
  | '%' :: _ => none
  | c :: rest => (percentOctets? rest).map (Utf8.encodeChar c ++ ·)

/-- The text that a percent-encoded text stands for. -/
def percentDecode? (s : String) : Option String := (percentOctets? s.toList).bind Utf8.decode?

/-! ### The form of a path -/

/-- Whether a character may stand for itself in a path: a letter or a digit of ASCII, a slash, or
one of four other marks. -/
def isPathMark (c : Char) : Bool := c.isAlphanum || "_.-~/".toList.contains c

/-- Whether a character is a hexadecimal digit in upper case. -/
def isUpperHexDigit (c : Char) : Bool := "0123456789ABCDEF".toList.contains c

/-- **The form of a path in an address**: marks, and percent signs with two upper-case digits. -/
inductive PathForm : List Char → Prop
  | nil : PathForm []
  | mark {c : Char} {rest : List Char} : isPathMark c = true → PathForm rest → PathForm (c :: rest)
  | octet {high low : Char} {rest : List Char} : isUpperHexDigit high = true →
      isUpperHexDigit low = true → PathForm rest → PathForm ('%' :: high :: low :: rest)

namespace PathForm

variable {cs ds : List Char}

/-- Two such texts are one, when they are put together. -/
theorem append (hcs : PathForm cs) (hds : PathForm ds) : PathForm (cs ++ ds) := by
  induction hcs with
  | nil => exact hds
  | mark hc _ ih => exact .mark hc ih
  | octet hhigh hlow _ ih => exact .octet hhigh hlow ih

/-- Such a text holds marks and percent signs only. -/
theorem mem (h : PathForm cs) {c : Char} (hc : c ∈ cs) : isPathMark c = true ∨ c = '%' := by
  have hdigits : "0123456789ABCDEF".toList.all isPathMark = true := by decide
  have hdigit {d : Char} (hd : isUpperHexDigit d = true) : isPathMark d = true :=
    List.all_eq_true.1 hdigits d (List.contains_iff_mem.1 hd)
  induction h with
  | nil => cases hc
  | mark hmark _ ih =>
    rcases List.mem_cons.1 hc with rfl | hc
    · exact .inl hmark
    · exact ih hc
  | octet hhigh hlow _ ih =>
    rcases List.mem_cons.1 hc with rfl | hc
    · exact .inr rfl
    rcases List.mem_cons.1 hc with rfl | hc
    · exact .inl (hdigit hhigh)
    rcases List.mem_cons.1 hc with rfl | hc
    · exact .inl (hdigit hlow)
    · exact ih hc

end PathForm

/-! ### Octets -/

/-- The two forms of an octet. -/
inductive OctetForm (b : UInt8) : List Char → Prop
  /-- A mark that is this octet. -/
  | mark {c : Char} : isPathMark c = true → Utf8.encodeChar c = [b] → OctetForm b [c]
  /-- A percent sign with the two digits of the octet. -/
  | digits {high low : Char} {h l : Nat} : isUpperHexDigit high = true →
      isUpperHexDigit low = true → hexValue? high = some h → hexValue? low = some l →
      b.toNat = 16 * h + l → OctetForm b ['%', high, low]

/-- An upper-case digit has its number as its value. -/
theorem upperHexDigit_spec : ∀ d < 16,
    isUpperHexDigit (upperHexDigit d) = true ∧ hexValue? (upperHexDigit d) = some d := by
  decide

/-- An octet that is safe in a path is a mark. -/
theorem isPathMark_of_isUrlSafe {b : UInt8} (h : isUrlSafe b = true) :
    isPathMark (Char.ofNat b.toNat) = true ∧ Utf8.encodeChar (Char.ofNat b.toNat) = [b] := by
  have hcodes : ∀ n < 256, isUrlSafe (UInt8.ofNat n) = true →
      isPathMark (Char.ofNat n) = true ∧ Utf8.encodeChar (Char.ofNat n) = [UInt8.ofNat n] := by
    decide +kernel
  have hcode := hcodes b.toNat b.toNat_lt
  rw [UInt8.ofNat_toNat] at hcode
  exact hcode h

/-- Every octet is written in one of the forms. -/
theorem octetForm_percentEncodeByte (b : UInt8) : OctetForm b (percentEncodeByte b) := by
  rw [percentEncodeByte]
  split
  · next hsafe =>
    obtain ⟨hmark, hself⟩ := isPathMark_of_isUrlSafe hsafe
    exact .mark hmark hself
  · have hlt := b.toNat_lt
    obtain ⟨hhigh, hhighValue⟩ := upperHexDigit_spec (b.toNat / 16) (by omega)
    obtain ⟨hlow, hlowValue⟩ := upperHexDigit_spec (b.toNat % 16) (by omega)
    exact .digits hhigh hlow hhighValue hlowValue (by omega)

namespace OctetForm

variable {b : UInt8} {cs : List Char} (h : OctetForm b cs)

include h

/-- Either form may stand in a path. -/
theorem pathForm : PathForm cs := by
  cases h with
  | mark hmark _ => exact .mark hmark .nil
  | digits hhigh hlow _ _ _ => exact .octet hhigh hlow .nil

/-- **The octet is read back** from either form, whatever follows. -/
theorem percentOctets?_append (rest : List Char) :
    percentOctets? (cs ++ rest) = (percentOctets? rest).map (b :: ·) := by
  cases h with
  | mark hmark hself =>
    have hpercent := ne_of_test hmark (d := '%') (by decide)
    rw [List.singleton_append, percentOctets?.eq_def]
    split
    · next heq => cases heq
    · next heq => exact absurd (List.cons.inj heq).1 hpercent
    · next heq => exact absurd (List.cons.inj heq).1 hpercent
    · next heq =>
      obtain ⟨rfl, rfl⟩ := List.cons.inj heq
      rw [hself]
      rfl
  | digits _ _ hhigh hlow hvalue =>
    rw [List.cons_append, List.cons_append, List.cons_append, List.nil_append, percentOctets?,
      hhigh, hlow]
    dsimp only
    rw [← hvalue, UInt8.ofNat_toNat]

end OctetForm

/-! ### Texts -/

/-- Encoded octets read back. -/
theorem percentOctets?_flatMap (octets : List UInt8) :
    percentOctets? (octets.flatMap percentEncodeByte) = some octets := by
  induction octets with
  | nil => rfl
  | cons b octets ih =>
    rw [List.flatMap_cons, (octetForm_percentEncodeByte b).percentOctets?_append, ih]
    rfl

/-- **A percent-encoded text reads back.** -/
theorem percentDecode?_percentEncode (s : String) : percentDecode? (percentEncode s) = some s := by
  rw [percentDecode?, percentEncode, String.toList_ofList, percentOctets?_flatMap]
  exact Utf8.decode?_encode s

/-- **A percent-encoded text has the form of a path** in an address. -/
theorem pathForm_percentEncode (s : String) : PathForm (percentEncode s).toList := by
  rw [percentEncode, String.toList_ofList]
  induction Utf8.encode s with
  | nil => exact .nil
  | cons b octets ih =>
    rw [List.flatMap_cons]
    exact (octetForm_percentEncodeByte b).pathForm.append ih

/-- No two texts are encoded alike. -/
theorem percentEncode_injective {s t : String} (h : percentEncode s = percentEncode t) : s = t := by
  have hs := percentDecode?_percentEncode s
  rw [h, percentDecode?_percentEncode] at hs
  exact (Option.some.inj hs).symm

end LintReport.Text
