import LintReport.Text.Hex
import LintReport.Text.Utf8

/-!
# Percent encoding

A path inside a URL is written in ASCII: letters, digits, `_`, `.`, `-`, `~` and the slash stand for
themselves, and every other octet of the UTF-8 form becomes `%` with two upper-case hexadecimal
digits.

## Main definitions

* `Text.percentEncode`
-/

namespace LintReport.Text

/-- The octets that stand for themselves in a URL path. -/
def isUrlSafe (b : UInt8) : Bool :=
  let n := b.toNat
  (48 ≤ n && n ≤ 57) || (65 ≤ n && n ≤ 90) || (97 ≤ n && n ≤ 122) ||
    n == 95 || n == 46 || n == 45 || n == 126 || n == 47

/-- One octet of a URL path. -/
def percentEncodeByte (b : UInt8) : List Char :=
  if isUrlSafe b then [Char.ofNat b.toNat]
  else ['%', upperHexDigit (b.toNat / 16), upperHexDigit (b.toNat % 16)]

/-- A text as it stands in a URL path. -/
def percentEncode (s : String) : String :=
  String.ofList ((Utf8.encode s).flatMap percentEncodeByte)

end LintReport.Text
