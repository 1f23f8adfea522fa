import LintReport.Proofs.GitHub.Talk

/-!
# Waits

The wait doubles after every attempt, and a wait that is too large for a number ends the request. A
number of fewer than 1024 binary digits is never too large, so with the delay that a client has by
itself the first thousand waits have a length, whatever is added to them.

## Main results

* `Binary64.ofInt?_isSome`: an integer of fewer than 1024 binary digits has a nearest number.
* `Client.pause?_isSome`: **the waits of a client with the usual delay have a length**.
-/

namespace LintReport

namespace Binary64

/-- The exponent for an integer leaves its mantissa 53 bits. -/
theorem exponentFor_le (num : Nat) (h : num.log2 ≤ 1022) : exponentFor num 1 ≤ 970 := by
  have hguess : ((num.log2 : Int) - ((1 : Nat).log2 : Int) - 52) ≤ 970 := by
    have hone : Nat.log2 1 = 0 := by decide
    omega
  rw [exponentFor]
  dsimp only
  split <;> omega

/-- An integer of fewer than 1024 binary digits is in the range of the finite numbers. -/
theorem ofRatio_ne_infinity {num : Nat} (h : num.log2 ≤ 1022) (negative sign : Bool) :
    ofRatio negative num 1 ≠ infinity sign := by
  have hexponent := exponentFor_le num h
  rw [ofRatio]
  split
  · exact nofun
  · dsimp only
    split
    · -- the mantissa was rounded up to a power of two
      dsimp only
      rw [if_neg (by omega)]
      exact nofun
    · dsimp only
      rw [if_neg (by omega)]
      exact nofun

/-- **An integer of fewer than 1024 binary digits has a nearest number.** -/
theorem ofInt?_isSome {i : Int} (h : i.natAbs.log2 ≤ 1022) : (ofInt? i).isSome = true := by
  rw [ofInt?]
  split
  · next sign hinfinity => exact absurd hinfinity (ofRatio_ne_infinity h _ sign)
  · rfl

end Binary64

namespace GitHub.Client

variable {σ : Type} {client : Client σ}

/-- **The waits of a client with the usual delay have a length**, whatever is added to them. -/
theorem pause?_isSome (hdelay : client.baseDelay = .float (.ofRatio false 1 1)) {jitter : Binary64}
    (hjitter : client.jitter = .float jitter) {attempt : Nat} (h : attempt ≤ 1022) :
    (client.pause? attempt).isSome = true := by
  have hlog : ((twoTo attempt : Nat) : Int).natAbs.log2 ≤ 1022 := by
    have hpower : (twoTo attempt).log2 = attempt := Nat.log2_two_pow
    rw [Int.natAbs_natCast, hpower]
    exact h
  obtain ⟨factor, hfactor⟩ := Option.isSome_iff_exists.1 (Binary64.ofInt?_isSome hlog)
  rw [pause?, delay?, hdelay, hjitter]
  simp only [Quantity.mul?, Quantity.add?, Quantity.toFixed?, Quantity.toBinary64?, hfactor]
  rfl

end GitHub.Client

end LintReport
