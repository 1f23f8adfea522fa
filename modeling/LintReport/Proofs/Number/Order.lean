import LintReport.Number.Binary64
import Mathlib.Data.EReal.Basic

/-!
# The Order of Numbers

A number stands for an extended real number, unless it is not-a-number. The tests of a number
against zero are those of what it stands for, so not-a-number passes none of them: it is not greater
than zero, and a test that refuses what is at most zero lets it through.

## Main definitions

* `Binary64.value?`: the extended real number that a number stands for.

## Main results

* `Binary64.isNonPositive_iff`: **the test for numbers that are at most zero**.
* `Binary64.value?_eq_none_iff`: only not-a-number stands for nothing.
* `Binary64.ofDecimal_ne_nan`: a decimal is never read as not-a-number.
-/

namespace LintReport.Binary64

variable {x : Binary64}

/-- The extended real number that a number stands for, if it is a number at all. -/
noncomputable def value? : Binary64 → Option EReal
  | nan => none
  | infinity negative => some (if negative then ⊥ else ⊤)
  | finite negative mantissa exponent =>
    some ((signed negative mantissa * (2 : ℝ) ^ exponent : ℝ) : EReal)

/-- Only not-a-number stands for nothing. -/
theorem value?_eq_none_iff : x.value? = none ↔ x = nan := by
  cases x <;> simp [value?]

/-- A finite number is at most zero exactly when it has the sign or no mantissa. -/
theorem signed_mul_nonpos_iff (negative : Bool) (mantissa : Nat) (exponent : Int) :
    (signed negative mantissa : ℝ) * (2 : ℝ) ^ exponent ≤ 0 ↔
      negative = true ∨ mantissa = 0 := by
  have hpower : (0 : ℝ) < 2 ^ exponent := zpow_pos two_pos exponent
  rw [← not_lt, mul_pos_iff_of_pos_right hpower, not_lt]
  cases negative with
  | true => simp [signed]
  | false => simp [signed]

/-- **The test for numbers that are at most zero**: not-a-number does not pass it. -/
theorem isNonPositive_iff : x.isNonPositive = true ↔ ∃ v, x.value? = some v ∧ v ≤ 0 := by
  cases x with
  | nan => simp [isNonPositive, value?]
  | infinity negative => cases negative <;> simp [isNonPositive, value?]
  | finite negative mantissa exponent =>
    have hsign := signed_mul_nonpos_iff negative mantissa exponent
    rw [isNonPositive, Bool.or_eq_true, beq_iff_eq, ← hsign]
    simp only [value?, Option.some.injEq, exists_eq_left', EReal.coe_nonpos]

/-- A number that is not at most zero is greater than zero, or it is not-a-number. -/
theorem not_isNonPositive_iff :
    x.isNonPositive = false ↔ (∃ v, x.value? = some v ∧ 0 < v) ∨ x = nan := by
  rw [← Bool.not_eq_true, isNonPositive_iff, ← value?_eq_none_iff]
  cases x.value? with
  | none => simp
  | some v => simp

/-! ### Reading decimals -/

/-- A quotient is never rounded to not-a-number. -/
theorem ofRatio_ne_nan (negative : Bool) (num den : Nat) : ofRatio negative num den ≠ nan := by
  rw [ofRatio]
  split
  · exact nofun
  · -- whether or not the mantissa is rounded up to a power of two
    dsimp only
    split <;> dsimp only <;> split <;> exact nofun

/-- **A decimal is never read as not-a-number.** -/
theorem ofDecimal_ne_nan (negative : Bool) (digits : Nat) (power : Int) :
    ofDecimal negative digits power ≠ nan := by
  rw [ofDecimal]
  split
  · exact nofun
  split
  · exact nofun
  split
  · exact nofun
  split <;> exact ofRatio_ne_nan _ _ _

end LintReport.Binary64
