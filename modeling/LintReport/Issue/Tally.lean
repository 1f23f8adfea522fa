import LintReport.Issue.Basic

/-!
# Counting and grouping issues

## Main definitions

* `SeverityCounts`, `Issue.count`: how many issues are errors, warnings and hints.
* `groupBy`: items under their keys, keys in the order of their first items.
* `ranked`: groups by decreasing size.
-/

namespace LintReport

/-- The numbers of errors, warnings and hints. -/
structure SeverityCounts where
  error : Nat
  warning : Nat
  hint : Nat
deriving DecidableEq, Repr

/-- The number of all issues counted. -/
def SeverityCounts.total (c : SeverityCounts) : Nat := c.error + c.warning + c.hint

/-- The numbers of errors, warnings and hints among issues. -/
def Issue.count (issues : List Issue) : SeverityCounts where
  error := issues.countP fun issue => issue.level == .error
  warning := issues.countP fun issue => issue.level == .warning
  hint := issues.countP fun issue => issue.level == .hint

/-- Every issue is counted exactly once. -/
theorem Issue.total_count (issues : List Issue) : (Issue.count issues).total = issues.length := by
  induction issues with
  | nil => rfl
  | cons issue rest ih =>
    simp only [SeverityCounts.total, Issue.count, List.countP_cons, List.length_cons] at ih ⊢
    cases h : issue.level <;> simp <;> omega

/-! ### Groups -/

variable {α : Type}

/-- The groups after one more item: it joins the group of its key, or starts a group at the end. -/
def addToGroup (key : String) (item : α) : List (String × List α) → List (String × List α)
  | [] => [(key, [item])]
  | (k, items) :: rest =>
    if k == key then (k, items ++ [item]) :: rest else (k, items) :: addToGroup key item rest

/-- Items under their keys. Keys stand in the order of their first items, and the items of a key in
their own order. -/
def groupBy (key : α → String) (items : List α) : List (String × List α) :=
  items.foldl (fun groups item => addToGroup (key item) item groups) []

/-- Groups by decreasing size; groups of one size keep their order. -/
def ranked (groups : List (String × List α)) : List (String × List α) :=
  groups.mergeSort fun a b => decide (b.2.length ≤ a.2.length)

/-- Issues under the files they are in. -/
def Issue.byFile (issues : List Issue) : List (String × List Issue) := groupBy Issue.file issues

/-- Issues under the rules they violate. -/
def Issue.byRule (issues : List Issue) : List (String × List Issue) := groupBy Issue.ruleId issues

end LintReport
