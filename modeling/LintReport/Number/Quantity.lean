import LintReport.Number.Shortest

/-!
# Quantities

Times are given as integers or as binary64 numbers, and stay what they are: sums and products of
integers are integers, and an integer is only converted when it meets a binary64 number.

## Main definitions

* `Quantity`, `Quantity.add`, `Quantity.mul`.
* `Quantity.text`, `Quantity.toFixed?`.
-/

namespace LintReport

/-- An integer or a binary64 number. -/
inductive Quantity
  | int (i : Int)
  | float (x : Binary64)
deriving DecidableEq, Repr

namespace Quantity

/-- The binary64 number nearest to a quantity, unless it is too large. -/
def toBinary64? : Quantity → Option Binary64
  | int i => Binary64.ofInt? i
  | float x => some x

/-- The sum; `none` if an integer is too large to be converted. -/
def add? : Quantity → Quantity → Option Quantity
  | int i, int j => some (int (i + j))
  | a, b => do return float ((← a.toBinary64?).add (← b.toBinary64?))

/-- The product; `none` if an integer is too large to be converted. -/
def mul? : Quantity → Quantity → Option Quantity
  | int i, int j => some (int (i * j))
  | a, b => do return float ((← a.toBinary64?).mul (← b.toBinary64?))

/-- A quantity as it is recorded. -/
def text : Quantity → String
  | int i => toString i
  | float x => x.toText Binary64.Layout.plain

/-- A quantity with a fixed number of decimal places. -/
def toFixed? (places : Nat) (q : Quantity) : Option String := q.toBinary64?.map (·.toFixed places)

end Quantity

end LintReport
