/-!
# Powers of two and of ten

## Main definitions

* `twoTo`, `tenTo`: the scales of binary and of decimal numbers.
-/

namespace LintReport

/-- A power of two. -/
def twoTo (n : Nat) : Nat := Nat.pow 2 n

/-- A power of ten. -/
def tenTo (n : Nat) : Nat := Nat.pow 10 n

end LintReport
