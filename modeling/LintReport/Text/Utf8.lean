/-!
# UTF-8

Files, replies and the output of programs are octets; texts are characters. `encode` writes one to
four octets for a character. `decode?` reads them back and refuses everything that `encode` does not
write: stray continuation octets, overlong forms, surrogates, code points above U+10FFFF and cut
sequences.

## Main definitions

* `Text.Utf8.encodeChar`, `Text.Utf8.encode`
* `Text.Utf8.decode?`
-/

namespace LintReport.Text.Utf8

/-- The octets of one character. -/
def encodeChar (c : Char) : List UInt8 :=
  let n := c.toNat
  if n < 0x80 then [UInt8.ofNat n]
  else if n < 0x800 then [UInt8.ofNat (0xC0 + n / 64), UInt8.ofNat (0x80 + n % 64)]
  else if n < 0x10000 then
    [UInt8.ofNat (0xE0 + n / 4096), UInt8.ofNat (0x80 + n / 64 % 64), UInt8.ofNat (0x80 + n % 64)]
  else
    [UInt8.ofNat (0xF0 + n / 262144), UInt8.ofNat (0x80 + n / 4096 % 64),
      UInt8.ofNat (0x80 + n / 64 % 64), UInt8.ofNat (0x80 + n % 64)]

/-- The octets of a list of characters. -/
def encodeChars (cs : List Char) : List UInt8 := cs.flatMap encodeChar

/-- The octets of a text. -/
def encode (s : String) : List UInt8 := encodeChars s.toList

/-- The six payload bits of a continuation octet. -/
def continuation? (b : UInt8) : Option Nat :=
  if 0x80 ≤ b.toNat ∧ b.toNat < 0xC0 then some (b.toNat - 0x80) else none

/-- A character from its code point, if it is at least `least` and no surrogate. -/
def charFrom? (least code : Nat) : Option Char :=
  if least ≤ code ∧ Nat.isValidChar code then some (Char.ofNat code) else none

/-- The characters of a list of octets, or `none` where the octets are not UTF-8. -/
def decodeChars? : List UInt8 → Option (List Char)
  | [] => some []
  | b :: rest =>
    let n := b.toNat
    if n < 0x80 then (decodeChars? rest).map (Char.ofNat n :: ·)
    else if n < 0xC0 then none
    else
      match rest with
      | [] => none
      | b₁ :: rest =>
        match continuation? b₁ with
        | none => none
        | some k₁ =>
          if n < 0xE0 then
            match charFrom? 0x80 ((n - 0xC0) * 64 + k₁) with
            | none => none
            | some c => (decodeChars? rest).map (c :: ·)
          else
            match rest with
            | [] => none
            | b₂ :: rest =>
              match continuation? b₂ with
              | none => none
              | some k₂ =>
                if n < 0xF0 then
                  match charFrom? 0x800 ((n - 0xE0) * 4096 + k₁ * 64 + k₂) with
                  | none => none
                  | some c => (decodeChars? rest).map (c :: ·)
                else
                  match rest with
                  | [] => none
                  | b₃ :: rest =>
                    match continuation? b₃ with
                    | none => none
                    | some k₃ =>
                      match charFrom? 0x10000
                          ((n - 0xF0) * 262144 + k₁ * 4096 + k₂ * 64 + k₃) with
                      | none => none
                      | some c => (decodeChars? rest).map (c :: ·)

/-- The text of a list of octets, or `none` where the octets are not UTF-8. -/
def decode? (bytes : List UInt8) : Option String := (decodeChars? bytes).map String.ofList

end LintReport.Text.Utf8
