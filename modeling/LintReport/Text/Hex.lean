/-!
# Hexadecimal digits

Digits as characters, in lower and in upper case, and numbers of a fixed width in them. Escapes in
JSON, in quoted texts, in URLs and in YAML all use them.

## Main definitions

* `Text.hexDigit`, `Text.upperHexDigit`: the digit of a number below 16.
* `Text.hexValue?`: the number of a digit of either case.
* `Text.hexPad`: a number written with a fixed count of digits.
-/

namespace LintReport.Text

/-- The lower-case digit of a number below 16. -/
def hexDigit (n : Nat) : Char := if n < 10 then Char.ofNat (48 + n) else Char.ofNat (87 + n)

/-- The upper-case digit of a number below 16. -/
def upperHexDigit (n : Nat) : Char := if n < 10 then Char.ofNat (48 + n) else Char.ofNat (55 + n)

/-- The number of a hexadecimal digit of either case. -/
def hexValue? (c : Char) : Option Nat :=
  if '0' ≤ c ∧ c ≤ '9' then some (c.toNat - 48)
  else if 'a' ≤ c ∧ c ≤ 'f' then some (c.toNat - 87)
  else if 'A' ≤ c ∧ c ≤ 'F' then some (c.toNat - 55)
  else none

/-- The last `width` hexadecimal digits of a number, in lower case. -/
def hexPad : Nat → Nat → List Char
  | 0, _ => []
  | width + 1, n => hexPad width (n / 16) ++ [hexDigit (n % 16)]

/-- The number written by a list of hexadecimal digits, most significant first. -/
def hexNumber? (cs : List Char) : Option Nat :=
  cs.foldl (fun total c => match total, hexValue? c with
    | some n, some d => some (16 * n + d)
    | _, _ => none) (some 0)

end LintReport.Text
