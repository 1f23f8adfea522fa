import LintReport.Number.Power

/-!
# Binary64 numbers

Time limits and waiting times are binary64 numbers. They are kept exactly: a sign, a mantissa and a
power of two, so that every operation is a statement about natural numbers. Results are rounded to
the nearest number, ties to the even mantissa.

## Main definitions

* `Binary64`: not-a-number, an infinity, or `± mantissa · 2 ^ exponent`.
* `Binary64.ofRatio`: the number nearest to a quotient of natural numbers.
* `Binary64.add`, `Binary64.mul`, `Binary64.ofInt?`
* `Binary64.isZero`, `Binary64.isNonPositive`
-/

namespace LintReport

/-- A binary64 number. The mantissa of a finite number is below `2 ^ 53`; it is at least `2 ^ 52`
unless the exponent is the least one, `-1074`. -/
inductive Binary64
  | nan
  | infinity (negative : Bool)
  | finite (negative : Bool) (mantissa : Nat) (exponent : Int)
deriving DecidableEq, Repr

namespace Binary64

/-- The quotient of two natural numbers rounded to the nearest, ties to even. -/
def divRound (num den : Nat) : Nat :=
  let q := num / den
  let r := num % den
  if 2 * r < den then q
  else if den < 2 * r then q + 1
  else if q % 2 == 0 then q else q + 1

/-- Zero of either sign. -/
def zero (negative : Bool) : Binary64 := finite negative 0 (-1074)

/-- The numerator and denominator of `num / den / 2 ^ exponent`. -/
def scaled (num den : Nat) (exponent : Int) : Nat × Nat :=
  if exponent < 0 then (num * twoTo (-exponent).toNat, den) else (num, den * twoTo exponent.toNat)

/-- The exponent that gives `num / den` a mantissa of 53 bits, but at least `-1074`. -/
def exponentFor (num den : Nat) : Int :=
  let guess : Int := (num.log2 : Int) - (den.log2 : Int) - 52
  let (n, d) := scaled num den guess
  max (-1074) (if n / d < twoTo 52 then guess - 1 else guess)

/-- The number nearest to `± num / den`. -/
def ofRatio (negative : Bool) (num den : Nat) : Binary64 :=
  if num == 0 then zero negative
  else
    let exponent := exponentFor num den
    let (n, d) := scaled num den exponent
    let mantissa := divRound n d
    let (mantissa, exponent) :=
      if mantissa == twoTo 53 then (twoTo 52, exponent + 1) else (mantissa, exponent)
    if exponent > 971 then infinity negative else finite negative mantissa exponent

/-- The number nearest to `± digits · 10 ^ power`. Powers beyond the range are decided by the size
of the number alone. -/
def ofDecimal (negative : Bool) (digits : Nat) (power : Int) : Binary64 :=
  let size : Int := (Nat.toDigits 10 digits).length + power
  if digits == 0 then zero negative
  else if size > 400 then infinity negative
  else if size < -400 then zero negative
  else if power < 0 then ofRatio negative digits (tenTo (-power).toNat)
  else ofRatio negative (digits * tenTo power.toNat) 1

/-- The number nearest to an integer, unless it lies beyond the finite numbers. -/
def ofInt? (i : Int) : Option Binary64 :=
  match ofRatio (i < 0) i.natAbs 1 with
  | infinity _ => none
  | x => some x

/-! ### Arithmetic -/

/-- The signed multiple of `2 ^ exponent` that a finite number is. -/
def signed (negative : Bool) (mantissa : Nat) : Int :=
  if negative then -(mantissa : Int) else mantissa

/-- The number nearest to an integral multiple of a power of two. An exact zero has the given
sign. -/
def ofScaled (zeroSign : Bool) (value exponent : Int) : Binary64 :=
  if value == 0 then zero zeroSign
  else if exponent < 0 then ofRatio (value < 0) value.natAbs (twoTo (-exponent).toNat)
  else ofRatio (value < 0) (value.natAbs * twoTo exponent.toNat) 1

/-- The sum, rounded. A zero sum is negative only when both terms are negative zeros. -/
def add : Binary64 → Binary64 → Binary64
  | nan, _ => nan
  | _, nan => nan
  | infinity s, infinity t => if s == t then infinity s else nan
  | infinity s, _ => infinity s
  | _, infinity t => infinity t
  | finite s m e, finite t n f =>
    let least := min e f
    let total := signed s m * twoTo (e - least).toNat + signed t n * twoTo (f - least).toNat
    ofScaled (s && t && m == 0 && n == 0) total least

/-- The product, rounded. -/
def mul : Binary64 → Binary64 → Binary64
  | nan, _ => nan
  | _, nan => nan
  | infinity s, infinity t => infinity (s != t)
  | infinity s, finite t n _ => if n == 0 then nan else infinity (s != t)
  | finite s m _, infinity t => if m == 0 then nan else infinity (s != t)
  | finite s m e, finite t n f => ofScaled (s != t) (signed s m * signed t n) (e + f)

/-- The same magnitude with the other sign. -/
def neg : Binary64 → Binary64
  | nan => nan
  | infinity s => infinity (!s)
  | finite s m e => finite (!s) m e

/-! ### Comparison -/

/-- Whether a number is a zero of either sign. -/
def isZero : Binary64 → Bool
  | finite _ m _ => m == 0
  | _ => false

/-- Whether a number is at most zero. Not-a-number is not. -/
def isNonPositive : Binary64 → Bool
  | nan => false
  | infinity s => s
  | finite s m _ => s || m == 0

/-- The integer that a finite number is, if it is one. -/
def toInt? : Binary64 → Option Int
  | finite s m e =>
    if e < 0 then
      if m % twoTo (-e).toNat == 0 then some (signed s (m / twoTo (-e).toNat)) else none
    else some (signed s (m * twoTo e.toNat))
  | _ => none

end Binary64

end LintReport
