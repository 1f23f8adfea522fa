/-!
# Counted nouns

## Main definitions

* `Text.pluralize`: the form of a noun that goes with a count.
-/

namespace LintReport.Text

/-- The singular for exactly one, and otherwise the plural: the given one, or the singular with an
`s`. -/
def pluralize (count : Int) (singular : String) (plural : Option String := none) : String :=
  if count == 1 then singular else plural.getD (singular ++ "s")

end LintReport.Text
