import LintReport.Number.Binary64

/-!
# Decimal text of binary64 numbers

A number is written with the fewest digits that read back as it; of several such decimals the
nearest is taken, and of two equally near ones the one with an even last digit. `Layout` says how
the digits are laid out.

## Main definitions

* `Binary64.shortest`: the digits and the place of the decimal point.
* `Layout`: where plain notation ends, and how an exponent is written.
* `Binary64.toText`: the text of a number under a layout.
* `Binary64.toFixed`: the text with a fixed number of decimal places.
-/

namespace LintReport.Binary64

/-- The reals that round to `mantissa · 2 ^ exponent`, as bounds in quarters of a unit in the last
place. Below a power of two the numbers lie twice as close. -/
structure Interval where
  low : Nat
  middle : Nat
  high : Nat
  /-- Whether the bounds themselves round to the number: the mantissa is even. -/
  closed : Bool
  /-- The value of one quarter is `2 ^ exponent`. -/
  exponent : Int
deriving Repr

/-- The reals that round to a finite number other than zero. -/
def interval (mantissa : Nat) (exponent : Int) : Interval where
  low := if mantissa == twoTo 52 && exponent > -1074 then 4 * mantissa - 1 else 4 * mantissa - 2
  middle := 4 * mantissa
  high := 4 * mantissa + 2
  closed := mantissa % 2 == 0
  exponent := exponent - 2

namespace Interval

/-- Whether `n / d` quarters lie in the interval. -/
def holds (i : Interval) (n d : Nat) : Bool :=
  if i.closed then i.low * d ≤ n && n ≤ i.high * d else i.low * d < n && n < i.high * d

/-- The numerator and denominator, in quarters, of `digits · 10 ^ power`. -/
def quarters (i : Interval) (digits : Nat) (power : Int) : Nat × Nat :=
  let n := digits * tenTo power.toNat * twoTo (-i.exponent).toNat
  let d := tenTo (-power).toNat * twoTo i.exponent.toNat
  (n, d)

/-- The middle of the interval divided by `10 ^ power`, rounded down. -/
def floorAt (i : Interval) (power : Int) : Nat :=
  (i.middle * twoTo i.exponent.toNat * tenTo (-power).toNat) /
    (twoTo (-i.exponent).toNat * tenTo power.toNat)

/-- Whether `digits · 10 ^ power` rounds to the number. -/
def accepts (i : Interval) (digits : Nat) (power : Int) : Bool :=
  let (n, d) := i.quarters digits power
  i.holds n d

/-- The distance of `digits · 10 ^ power` from the middle, over the denominator of `quarters`. -/
def distance (i : Interval) (digits : Nat) (power : Int) : Nat :=
  let (n, d) := i.quarters digits power
  max n (i.middle * d) - min n (i.middle * d)

/-- The multiple of `10 ^ power` that is chosen among the two neighbours of the middle, if one of
them rounds to the number. -/
def candidate (i : Interval) (power : Int) : Option Nat :=
  let below := i.floorAt power
  let above := below + 1
  match i.accepts below power, i.accepts above power with
  | false, false => none
  | true, false => some below
  | false, true => some above
  | true, true =>
    let b := i.distance below power
    let a := i.distance above power
    if b < a then some below
    else if a < b then some above
    else if below % 2 == 0 then some below else some above

/-- The first candidate on the grids `10 ^ power`, `10 ^ (power - 1)`, and so on. -/
def search (i : Interval) : Nat → Int → Nat × Int
  | 0, power => (i.floorAt power, power)
  | fuel + 1, power =>
    match i.candidate power with
    | some digits => (digits, power)
    | none => i.search fuel (power - 1)

/-- The least `power`, from a starting point upwards, with the middle below `10 ^ power`. -/
def ceilingPower (i : Interval) : Nat → Int → Int
  | 0, power => power
  | fuel + 1, power => if i.floorAt power == 0 then power else i.ceilingPower fuel (power + 1)

end Interval

/-- The digits of a decimal and the place of its point: `0.d₁d₂… · 10 ^ point`. -/
structure Decimal where
  digits : List Char
  point : Int
deriving DecidableEq, Repr

/-- The decimal of `digits · 10 ^ power`, without trailing zeros. -/
def Decimal.ofScaled (digits : Nat) (power : Int) : Decimal :=
  let all := Nat.toDigits 10 digits
  let kept := (all.reverse.dropWhile (· == '0')).reverse
  ⟨if kept.isEmpty then ['0'] else kept, all.length + power⟩

/-- The shortest decimal that reads back as a finite number other than zero. -/
def shortest (mantissa : Nat) (exponent : Int) : Decimal :=
  let i := interval mantissa exponent
  let start : Int := ((mantissa.log2 : Int) + exponent) * 30103 / 100000 - 1
  let point := i.ceilingPower 8 start
  let (digits, power) := i.search 20 (point - 1)
  Decimal.ofScaled digits power

/-- How a decimal is laid out. -/
structure Layout where
  /-- Plain notation is used for points from here … -/
  firstPlain : Int
  /-- … to here; other points get an exponent. -/
  lastPlain : Int
  /-- The least number of digits of an exponent. -/
  exponentWidth : Nat
  nan : String
  infinity : String

/-- The layout of diagnostics and of recorded delays: plain from `0.0001` to sixteen digits, an
exponent of at least two digits otherwise. -/
def Layout.plain : Layout where
  firstPlain := -3
  lastPlain := 16
  exponentWidth := 2
  nan := "nan"
  infinity := "inf"

/-- A natural number with at least `width` digits. -/
def padded (width n : Nat) : List Char :=
  let digits := Nat.toDigits 10 n
  List.replicate (width - digits.length) '0' ++ digits

/-- Digits in plain notation: the point stands inside them, before them or after them, and at
least one digit follows it. -/
def plainDigits (d : Decimal) : List Char :=
  if d.point ≤ 0 then '0' :: '.' :: List.replicate (-d.point).toNat '0' ++ d.digits
  else
    let whole := d.point.toNat
    if d.digits.length ≤ whole then
      d.digits ++ List.replicate (whole - d.digits.length) '0' ++ ['.', '0']
    else d.digits.take whole ++ '.' :: d.digits.drop whole

/-- Digits with an exponent: one digit before the point, and a point only if more follow. -/
def exponentDigits (layout : Layout) (d : Decimal) : List Char :=
  let power := d.point - 1
  let mantissa :=
    match d.digits with
    | [] => []
    | [c] => [c]
    | c :: rest => c :: '.' :: rest
  mantissa ++ 'e' :: (if power < 0 then '-' else '+') ::
    padded layout.exponentWidth power.natAbs

/-- The characters of a number under a layout. -/
def toChars (layout : Layout) : Binary64 → List Char
  | nan => layout.nan.toList
  | infinity s => (if s then ['-'] else []) ++ layout.infinity.toList
  | finite s m e =>
    let body :=
      if m == 0 then ['0', '.', '0']
      else
        let d := shortest m e
        if layout.firstPlain ≤ d.point && d.point ≤ layout.lastPlain then plainDigits d
        else exponentDigits layout d
    (if s then ['-'] else []) ++ body

/-- The text of a number under a layout. -/
def toText (layout : Layout) (x : Binary64) : String := String.ofList (toChars layout x)

/-- The text of a number with `places` decimal places, rounded to the nearest, ties to even. -/
def toFixed (places : Nat) : Binary64 → String
  | nan => "nan"
  | infinity s => if s then "-inf" else "inf"
  | finite s m e =>
    let unit := tenTo places
    let units :=
      if e < 0 then divRound (m * unit) (twoTo (-e).toNat) else m * unit * twoTo e.toNat
    let whole := Nat.toDigits 10 (units / unit)
    let body := if places == 0 then whole else whole ++ '.' :: padded places (units % unit)
    String.ofList ((if s then ['-'] else []) ++ body)

end LintReport.Binary64
