import LintReport.Number.Binary64
import LintReport.Text.Blank
import LintReport.Text.Digit
import LintReport.Text.Hex

/-!
# Reading numbers typed by people

Options, environment variables and tagged scalars hold numbers as people type them: blanks around
the number, a sign, the digits of any script, and single underscores between digits are all allowed.

## Main definitions

* `Numeral.int?`: an integer in base 2 to 16.
* `Numeral.isShort`: the integers that can be read and shown in decimal.
* `Numeral.float?`: a decimal, an infinity or not-a-number.
-/

namespace LintReport.Numeral

/-- The blanks that may surround a number: of the ASCII characters the space and the five controls
from tab to carriage return, and all blanks beyond ASCII. The information separators are not among
them. -/
def isOuterBlank (c : Char) : Bool :=
  c == ' ' || (9 ≤ c.toNat && c.toNat ≤ 13) || (127 < c.toNat && Text.isBlank c)

/-- The characters of a number without the blanks around it, its digits in ASCII. -/
def normalize (cs : List Char) : List Char :=
  let inner := Text.dropEnd isOuterBlank (Text.dropStart isOuterBlank cs)
  inner.map fun c =>
    match Text.digitValue? c with
    | some d => Char.ofNat (48 + d)
    | none => c

/-- A sign and what follows it. -/
def splitSign : List Char → Bool × List Char
  | '-' :: rest => (true, rest)
  | '+' :: rest => (false, rest)
  | cs => (false, cs)

/-- Digits without the single underscores between them, `none` if an underscore stands elsewhere.
`afterDigit` says whether a digit stands before. -/
def dropUnderscores (isDigit : Char → Bool) (afterDigit : Bool) : List Char → Option (List Char)
  | [] => some []
  | '_' :: c :: rest =>
    if afterDigit && isDigit c then (dropUnderscores isDigit true rest).map (c :: ·) else none
  | '_' :: [] => none
  | c :: rest => (dropUnderscores isDigit (isDigit c) rest).map (c :: ·)

/-- The value of a digit below a base. -/
def digitBelow? (base : Nat) (c : Char) : Option Nat :=
  match Text.hexValue? c with
  | some d => if d < base then some d else none
  | none => none

/-- The value of digits in a base, most significant first. -/
def natOfDigits? (base : Nat) (total : Nat) : List Char → Option Nat
  | [] => some total
  | c :: rest =>
    match digitBelow? base c with
    | some d => natOfDigits? base (base * total + d) rest
    | none => none

/-- What follows the two-character mark of a base (`0b`, `0o`, `0x`), if the mark is there. One
underscore may stand after it. -/
def dropBaseMark (base : Nat) : List Char → List Char
  | '0' :: c :: rest =>
    let marked := (base == 2 && (c == 'b' || c == 'B')) || (base == 8 && (c == 'o' || c == 'O')) ||
      (base == 16 && (c == 'x' || c == 'X'))
    if marked then
      match rest with
      | '_' :: digits => digits
      | digits => digits
    else '0' :: c :: rest
  | cs => cs

/-- The most decimal digits that an integer can be read from or shown with. -/
def maxDigits : Nat := 4300

/-- Whether an integer has no more decimal digits than that. Its sign is not counted. -/
def isShort (i : Int) : Bool := (Nat.toDigits 10 i.natAbs).length ≤ maxDigits

/-- Whether there is room for the digits of an integer. In a base that is a power of two there may
be any number of them. -/
def hasRoom (base : Nat) (digits : List Char) : Bool :=
  base &&& (base - 1) == 0 || digits.length ≤ maxDigits

/-- An integer in a base. -/
def int? (base : Nat) (s : String) : Option Int :=
  let (negative, unsigned) := splitSign (normalize s.toList)
  match dropUnderscores (fun c => (digitBelow? base c).isSome) false
      (dropBaseMark base unsigned) with
  | none => none
  | some [] => none
  | some digits =>
    if hasRoom base digits then
      (natOfDigits? base 0 digits).map fun n => if negative then -(n : Int) else (n : Int)
    else none

/-- A run of ASCII digits and what follows it. -/
def splitDigits (cs : List Char) : List Char × List Char :=
  (cs.takeWhile Char.isDigit, cs.dropWhile Char.isDigit)

/-- The power of ten after a mantissa: nothing, or `e` with an optional sign and digits. -/
def exponent? : List Char → Option Int
  | [] => some 0
  | c :: rest =>
    if c == 'e' || c == 'E' then
      let (negative, digits) := splitSign rest
      if digits.isEmpty then none
      else (natOfDigits? 10 0 digits).map fun n => if negative then -(n : Int) else (n : Int)
    else none

/-- An unsigned decimal: digits, a fraction, an exponent, with a digit before the exponent. -/
def decimal? (negative : Bool) (cs : List Char) : Option Binary64 :=
  let (whole, rest) := splitDigits cs
  let (fraction, rest) :=
    match rest with
    | '.' :: more => splitDigits more
    | _ => ([], rest)
  if whole.isEmpty && fraction.isEmpty then none
  else
    match exponent? rest, natOfDigits? 10 0 (whole ++ fraction) with
    | some power, some digits =>
      some (Binary64.ofDecimal negative digits (power - fraction.length))
    | _, _ => none

/-- A decimal number, or `inf`, `infinity` or `nan` in any letter case, with an optional sign. -/
def float? (s : String) : Option Binary64 :=
  match dropUnderscores Char.isDigit false (normalize s.toList) with
  | none => none
  | some cs =>
    let (negative, unsigned) := splitSign cs
    let word := String.ofList (unsigned.map Char.toLower)
    if word == "inf" || word == "infinity" then some (.infinity negative)
    else if word == "nan" then some .nan
    else decimal? negative unsigned

end LintReport.Numeral
