import LintReport.Issue.Output
import LintReport.Text.Blank

/-!
# Excluded rules

A run may exclude rules by their ids, given as one text with commas between them. The issues of
excluded rules are dropped; an excluded rule without any issue is probably misspelt and warned
about.

## Main definitions

* `Issue.parseExclusions`: the ids in a text.
* `Issue.exclude`: the issues of all other rules, and the warnings.
-/

namespace LintReport

/-- The distinct elements of a list in the order of their first occurrences. -/
def firstOccurrences {α : Type} [BEq α] : List α → List α
  | [] => []
  | a :: rest => a :: (firstOccurrences rest).filter fun b => !(b == a)

namespace Issue

/-- The ids between commas, trimmed, without the blank ones. -/
def parseExclusions (value : Option String) : List String :=
  ((Text.splitAt ',' (value.getD "")).map Text.trim).filter fun id => !id.isEmpty

/-- The issues of the rules that are not excluded. Each excluded rule that no issue belongs to is
warned about once. -/
def exclude (excluded : List String) (issues : List Issue) : Selection where
  issues := issues.filter fun issue => !excluded.contains issue.ruleId
  warnings :=
    ((firstOccurrences excluded).filter fun id => !issues.any fun issue => issue.ruleId == id).map
      Warning.notFound

end Issue

end LintReport
