import LintReport.Proofs.Issue.FirstOccurrences
import LintReport.Proofs.Json.RoundTrip
import LintReport.Proofs.Report.Delivery
import Mathlib.Data.List.Basic

/-!
# What a Report Accounts For

The issues of an output pass two filters. The first keeps the allowed rules and says something about
every issue that it drops. The second drops the excluded rules, and what it says is about rules: it
names those that none of the issues it was given belongs to. Together they put every element of the
output into one of three classes.

## Main results

* `Report.exists_accounts`: the classes of the elements and the missing rules of every output.
* `Report.ofResult_accounts`: **a report neither loses, invents nor reorders issues**.
-/

namespace LintReport

/-! ### The classes of issues -/

namespace Report

/-- Whether a rule is allowed. An empty list allows every rule. -/
def Allows (allowed : List String) (ruleId : String) : Prop := allowed = [] ∨ ruleId ∈ allowed

instance (allowed : List String) (ruleId : String) : Decidable (Allows allowed ruleId) :=
  inferInstanceAs (Decidable (_ ∨ _))

/-- **How a report accounts for the elements of an output**: the issues it keeps, those of rules
that are not allowed, those of excluded rules, and the excluded rules without any issue. -/
structure Accounts (items : List Json) (allowed excluded : List String)
    (kept rejected removed : List Issue) (missing : List String) : Prop where
  /-- Allowed issues of rules that are not excluded are kept. -/
  kept_eq : kept = (items.map Issue.ofMatch).filter fun issue =>
    Allows allowed issue.ruleId ∧ issue.ruleId ∉ excluded
  /-- All issues of other rules than the allowed ones are rejected. -/
  rejected_eq : rejected = (items.map Issue.ofMatch).filter fun issue =>
    ¬ Allows allowed issue.ruleId
  /-- Allowed issues of excluded rules are removed. -/
  removed_eq : removed = (items.map Issue.ofMatch).filter fun issue =>
    Allows allowed issue.ruleId ∧ issue.ruleId ∈ excluded
  /-- An excluded rule is missing when no allowed issue belongs to it. -/
  mem_missing : ∀ id, id ∈ missing ↔
    id ∈ excluded ∧ ∀ v ∈ items, Allows allowed (Issue.ofMatch v).ruleId →
      (Issue.ofMatch v).ruleId ≠ id
  /-- Missing rules are named once each, in the order in which they are excluded. -/
  missing_sorted : missing.Pairwise fun a b => excluded.idxOf a < excluded.idxOf b
  /-- Every element is counted exactly once. -/
  length_eq : items.length = kept.length + rejected.length + removed.length

/-- Two tests split a list into three classes. -/
theorem length_eq_classes {α : Type} (p q : α → Prop) [DecidablePred p] [DecidablePred q]
    (xs : List α) :
    xs.length = (xs.filter fun x => p x ∧ ¬ q x).length + (xs.filter fun x => ¬ p x).length +
      (xs.filter fun x => p x ∧ q x).length := by
  induction xs with
  | nil => rfl
  | cons x xs ih =>
    by_cases hp : p x <;> by_cases hq : q x <;>
      simp only [List.filter_cons, hp, hq, not_true_eq_false, not_false_eq_true, and_self,
        and_true, and_false, decide_true, decide_false, if_true, if_false, Bool.false_eq_true,
        List.length_cons] <;>
      omega

/-- The first filter keeps the allowed rules. -/
theorem selectAllowed_issues (allowed : List String) (issues : List Issue) :
    (Issue.selectAllowed (if allowed.isEmpty then none else some allowed) issues).issues =
      issues.filter fun issue => Allows allowed issue.ruleId := by
  cases allowed with
  | nil =>
    rw [List.filter_eq_self.2 (by simp [Allows])]
    rfl
  | cons id ids =>
    refine List.filter_congr fun issue _ => ?_
    rw [List.contains_eq_mem]
    simp [Allows]

/-- The first filter says something about every other issue. -/
theorem selectAllowed_warnings (allowed : List String) (issues : List Issue) :
    (Issue.selectAllowed (if allowed.isEmpty then none else some allowed) issues).warnings =
      (issues.filter fun issue => ¬ Allows allowed issue.ruleId).map Warning.notAllowed := by
  cases allowed with
  | nil =>
    rw [List.filter_eq_nil_iff.2 (by simp [Allows])]
    rfl
  | cons id ids =>
    refine congrArg _ (List.filter_congr fun issue _ => ?_)
    rw [List.contains_eq_mem]
    simp [Allows]

/-- The second filter keeps the rules that are not excluded. -/
theorem exclude_issues (allowed excluded : List String) (issues : List Issue) :
    (Issue.exclude excluded (issues.filter fun issue => Allows allowed issue.ruleId)).issues =
      issues.filter fun issue => Allows allowed issue.ruleId ∧ issue.ruleId ∉ excluded := by
  rw [Issue.exclude, List.filter_filter]
  refine List.filter_congr fun issue _ => ?_
  rw [List.contains_eq_mem, Bool.eq_iff_iff]
  simp [and_comm]

/-- **Every output has its account**, and its selection consists of that account. -/
theorem exists_accounts {text : String} {items : List Json}
    (hparse : Json.parse text = .ok (.arr items))
    (hshape : (items.take 5).all Issue.looksLikeMatch = true) (allowed excluded : List String) :
    ∃ kept rejected removed missing,
      Accounts items allowed excluded kept rejected removed missing ∧
      select text allowed excluded =
        .ok ⟨kept, rejected.map Warning.notAllowed ++ missing.map Warning.notFound⟩ := by
  let left := (items.map Issue.ofMatch).filter fun issue => Allows allowed issue.ruleId
  refine ⟨_, _, _, (firstOccurrences excluded).filter fun id =>
    !left.any fun issue => issue.ruleId == id, ⟨rfl, rfl, rfl, fun id => ?_, ?_, ?_⟩, ?_⟩
  · simp only [left, List.mem_filter, mem_firstOccurrences, Bool.not_eq_true', List.any_eq_false,
      beq_iff_eq, decide_eq_true_eq, List.mem_map, and_imp, forall_exists_index,
      forall_apply_eq_imp_iff₂]
  · exact (firstOccurrences_pairwise excluded).filter _
  · rw [← List.length_map Issue.ofMatch]
    exact length_eq_classes (fun issue : Issue => Allows allowed issue.ruleId)
      (fun issue : Issue => issue.ruleId ∈ excluded) _
  · rw [select_eq hparse hshape]
    dsimp only
    rw [selectAllowed_issues, selectAllowed_warnings, exclude_issues]
    rfl

/-- An object with a rule id looks like a match. -/
theorem looksLikeMatch_of_mem {members : List (String × Json)}
    (h : "ruleId" ∈ members.map (·.1)) : Issue.looksLikeMatch (.obj members) = true := by
  rw [Issue.looksLikeMatch, Json.field?]
  induction members with
  | nil => cases h
  | cons m rest ih =>
    obtain ⟨k, v⟩ := m
    rw [Json.lookup?]
    split
    · rfl
    · next hk =>
      rw [List.map_cons, List.mem_cons] at h
      rcases h with rfl | h
      · exact absurd (beq_self_eq_true _) hk
      · exact ih h

/-- What looks like a match is an object with a rule id. -/
theorem exists_members_of_looksLikeMatch {v : Json} (h : Issue.looksLikeMatch v = true) :
    ∃ members, v = .obj members ∧ "ruleId" ∈ members.map (·.1) := by
  cases v with
  | obj members =>
    refine ⟨members, rfl, ?_⟩
    rw [Issue.looksLikeMatch, Json.field?] at h
    induction members with
    | nil => cases h
    | cons m rest ih =>
      obtain ⟨k, v⟩ := m
      rw [Json.lookup?] at h
      rw [List.map_cons, List.mem_cons]
      split at h
      · next hk => exact .inl (eq_of_beq hk).symm
      · exact .inr (ih h)
  | _ => cases h

/-- **A report neither loses, invents nor reorders issues.** For every output that is an array whose
first five elements are objects with a rule id, the report shows the issues that are kept, in the
order of the output, says one thing about each rejected issue and then one about each missing rule,
and this is also what its delivery adds to the session. -/
theorem ofResult_accounts (result : Engine.Result) (o : ScanOptions) (allowed : List String)
    {items : List Json} (hparse : Json.parse result.output = .ok (.arr items))
    (hshape : ∀ v ∈ items.take 5, ∃ members, v = .obj members ∧ "ruleId" ∈ members.map (·.1))
    (settings : Settings) (before : Session) :
    ∃ kept rejected removed missing report,
      Accounts items allowed o.excluded kept rejected removed missing ∧
      ofResult result o allowed = .ok report ∧
      report.output = (if o.inWorkflow then Issue.workflowLines kept
        else [(Json.arr (kept.map Issue.toJson)).pretty]) ∧
      report.diagnostics =
        rejected.map (fun issue => .warning
          s!"Filtered out non-tempo lint issue: {issue.ruleId} in {issue.file}:{issue.line}") ++
        missing.map (fun id => .warning
          s!"Excluded rule \"{id}\" was not found in results (possible typo?)") ∧
      ∃ outcome files, (Scan.report result o allowed settings).run.run before =
        (outcome, { before with
          files := files
          output := before.output ++ textOfLines report.output
          diagnostics := before.diagnostics ++
            textOfLines (report.diagnostics.map (Diagnostic.line o.inWorkflow)) }) := by
  have hmatches : (items.take 5).all Issue.looksLikeMatch = true := by
    rw [List.all_eq_true]
    intro v hv
    obtain ⟨members, rfl, hmem⟩ := hshape v hv
    exact looksLikeMatch_of_mem hmem
  obtain ⟨kept, rejected, removed, missing, haccounts, hselect⟩ :=
    exists_accounts hparse hmatches allowed o.excluded
  have hreport := ofResult_eq hselect
  refine ⟨kept, rejected, removed, missing, _, haccounts, hreport, rfl, ?_, ?_⟩
  · rw [ofSelection, List.map_append, List.map_map, List.map_map]
    rfl
  · rw [Scan.report_run_ok hreport]
    exact Scan.deliver_run _ o settings before

/-- Six elements, of which the last one is no object. -/
def mixedItems : List Json :=
  ["a", "b", "c", "a", "b"].map (fun id => .obj [("ruleId", .str id)]) ++ [.int 3]

/-- The mixed elements over several lines are accounted for: with two allowed rules, an excluded one
among them and another one that has no issues. -/
theorem mixedItems_accounts :
    ∃ kept rejected removed missing report,
      Accounts mixedItems ["a", "b"] ["x", "b", "x"] kept rejected removed missing ∧
      ofResult ⟨1, (Json.arr mixedItems).pretty ++ "\n"⟩
        { json := true, excluded := ["x", "b", "x"] } ["a", "b"] = .ok report ∧
      report.output = [(Json.arr (kept.map Issue.toJson)).pretty] := by
  have hparse : Json.parse ((Json.arr mixedItems).pretty ++ "\n") = .ok (.arr mixedItems) := by
    refine Json.parse_pretty ?_ ?_ (List.all_eq_true.1 (by decide))
    · simp [mixedItems, Json.Readable, Json.ReadableItems, Json.ReadableMembers]
    · have hshort : Numeral.isShort 3 = true := by decide
      simp [mixedItems, Json.Fits, Json.FitsItems, Json.FitsMembers, Json.depthLimit, hshort]
  have hshape : ∀ v ∈ mixedItems.take 5, ∃ members, v = .obj members ∧
      "ruleId" ∈ members.map (·.1) := by
    simp [mixedItems]
  obtain ⟨kept, rejected, removed, missing, report, haccounts, hreport, houtput, -⟩ :=
    ofResult_accounts ⟨1, (Json.arr mixedItems).pretty ++ "\n"⟩
      { json := true, excluded := ["x", "b", "x"] } ["a", "b"] hparse hshape {} {}
  exact ⟨kept, rejected, removed, missing, report, haccounts, hreport, houtput⟩

end Report

end LintReport
