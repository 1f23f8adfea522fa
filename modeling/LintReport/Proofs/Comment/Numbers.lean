import LintReport.Comment.Body
import LintReport.Proofs.Issue.Ranking
import Mathlib.Data.Int.CharZero

/-!
# The Numbers in a Comment

A comment counts its issues in four places: in the headline, in the table of severities, in the
blocks of the rules and in the blocks of the files. Each place makes its own pass over the issues,
and the blocks are cut. What a reader counts in a block is kept in a `Tally`: the number in the
summary, the issues with a bullet of their own, and the number in the last bullet. The lines of a
section are the lines of its tallies, so the numbers of the tallies are the numbers that are read.

## Main definitions

* `Tally`, `Tally.lines`: what is counted in a block, and how it is written.
* `Tally.Fits`: the numbers of a block fit each other and the issues.
* `NumbersAgree`: the numbers of all parts of a comment fit each other.

## Main results

* `lines_groupBlock`: a block is written as its tally.
* `numbers_agree`: **all numbers of a comment agree**.
-/

namespace LintReport.Comment

/-! ### Blocks as they are counted -/

/-- What is counted in a block: the name and the number in its summary, the issues that have a
bullet, and the number in the bullet for the rest. -/
structure Tally where
  name : String
  size : Nat
  shown : List Issue
  left : Nat
deriving DecidableEq, Repr

namespace Tally

/-- The noun for a number of issues. -/
def noun (n : Nat) : String := if n = 1 then "issue" else "issues"

/-- The bullet for the rest, which is missing where nothing is left. -/
def rest (left : Nat) : List String :=
  if left = 0 then [] else ["- _...and " ++ toString left ++ " more " ++ noun left ++ "_"]

/-- The lines of a block and the empty line after it. -/
def lines (bullet : Issue → String) (b : Tally) : List String :=
  ["<details>",
    "<summary><code>" ++ Text.escapeMarkup b.name ++ "</code> (" ++ toString b.size ++ " " ++
      noun b.size ++ ")</summary>", ""] ++
    b.shown.map bullet ++ rest b.left ++ ["", "</details>", ""]

/-- **The numbers of a block fit each other** and the issues of its name: the bullets stand for the
first of them, and the bullets and the rest are as many as the summary says. -/
structure Fits (key : Issue → String) (issues : List Issue) (b : Tally) : Prop where
  size_pos : 0 < b.size
  size_eq : b.size = (issues.filter fun issue => key issue == b.name).length
  shown_prefix : b.shown <+: issues.filter fun issue => key issue == b.name
  length_eq : b.shown.length + b.left = b.size

/-- What is counted in the block of a group that is cut behind `limit` issues. -/
def ofGroup (limit : Nat) (group : String × List Issue) : Tally where
  name := group.1
  size := group.2.length
  shown := group.2.take limit
  left := group.2.length - limit

end Tally

/-- The noun that goes with a number of issues. -/
theorem pluralize_issue (n : Nat) : Text.pluralize n "issue" = Tally.noun n := by
  rw [Text.pluralize, Tally.noun]
  by_cases hn : n = 1
  · subst hn
    rfl
  · rw [if_neg (by simpa using hn), if_neg hn]
    rfl

/-- Issues that are cut are counted in a bullet for the rest. -/
theorem moreLine_take (limit : Nat) (group : List Issue) :
    moreLine (group.take limit).length group.length = Tally.rest (group.length - limit) := by
  have hleft : group.length - (group.take limit).length = group.length - limit := by
    rw [List.length_take]
    omega
  rw [moreLine, Tally.rest, hleft]
  by_cases hcut : limit < group.length
  · have hshort : (group.take limit).length < group.length := by
      rw [List.length_take]
      omega
    rw [if_pos hshort, if_neg (by omega)]
    dsimp only
    rw [pluralize_issue]
    rfl
  · have hwhole : ¬ (group.take limit).length < group.length := by
      rw [List.length_take]
      omega
    rw [if_neg hwhole, if_pos (by omega)]

/-- Without an indentation a line stays as it is. -/
theorem indented_empty (line : String) : Details.indented "" line = line := by
  rw [Details.indented]
  split
  · next h => exact (String.isEmpty_iff.1 h).symm
  · exact String.empty_append

/-- **A block is written as its tally** where its group has any issues. -/
theorem lines_groupBlock {limit : Nat} (hlimit : 0 < limit) (bullet : Issue → String)
    {group : String × List Issue} (hgroup : group.2 ≠ []) :
    (groupBlock limit bullet group).lines ++ [""] = (Tally.ofGroup limit group).lines bullet := by
  have hshown : group.2.take limit ≠ [] := by
    rw [ne_eq, List.take_eq_nil_iff, not_or]
    exact ⟨Nat.ne_of_gt hlimit, hgroup⟩
  have hbody : (groupBlock limit bullet group).body.isEmpty = false := by
    rw [List.isEmpty_eq_false_iff]
    exact List.append_ne_nil_of_left_ne_nil (by simpa using hshown) _
  have hsummary : "<summary>" ++ groupSummary group.1 group.2.length ++ "</summary>" =
      "<summary><code>" ++ Text.escapeMarkup group.1 ++ "</code> (" ++ toString group.2.length ++
        " " ++ Tally.noun group.2.length ++ ")</summary>" := by
    rw [← pluralize_issue]
    simp only [groupSummary, counted, String.append_assoc]
    rfl
  have hindented : Details.indented "" = id := funext indented_empty
  rw [Details.lines, hbody, if_neg Bool.false_ne_true]
  simp only [groupBlock, String.empty_append, hsummary, hindented, List.map_id, moreLine_take,
    Tally.lines, Tally.ofGroup, List.append_assoc, List.cons_append, List.nil_append]

/-- The lines of blocks are the lines of their tallies. -/
theorem blockLines_map {limit : Nat} (hlimit : 0 < limit) (bullet : Issue → String)
    {groups : List (String × List Issue)} (hgroups : ∀ group ∈ groups, group.2 ≠ []) :
    blockLines (groups.map (groupBlock limit bullet)) =
      (groups.map (Tally.ofGroup limit)).flatMap (Tally.lines bullet) := by
  rw [blockLines, List.flatMap_map, List.flatMap_map]
  exact List.flatMap_congr fun group hgroup => lines_groupBlock hlimit bullet (hgroups group hgroup)

/-! ### Groups of issues -/

section Groups

variable {key : Issue → String} {issues : List Issue} {group : String × List Issue}

/-- The numbers of the block of a group fit each other. -/
theorem Tally.ofGroup_fits (limit : Nat) (h : group ∈ ranked (groupBy key issues)) :
    (Tally.ofGroup limit group).Fits key issues := by
  have hitems := (eq_of_mem_ranked h).2
  exact {
    size_pos := List.length_pos_of_ne_nil (ne_nil_of_mem_ranked h)
    size_eq := congrArg List.length hitems
    shown_prefix := hitems ▸ List.take_prefix limit group.2
    length_eq := by
      dsimp only [Tally.ofGroup]
      rw [List.length_take]
      omega }

/-- The sizes of all blocks sum to the number of issues. -/
theorem sum_size_ranked (limit : Nat) (key : Issue → String) (issues : List Issue) :
    (((ranked (groupBy key issues)).map (Tally.ofGroup limit)).map Tally.size).sum =
      issues.length := by
  rw [List.map_map, ← sum_length_groupBy key issues]
  exact ((ranked_perm _).map _).sum_eq

end Groups

/-! ### The whole comment -/

/-- **The numbers of a comment agree**: those of the headline, of the table, of the blocks for the
rules and of the blocks for the files, where `omitted` files have no block. -/
structure NumbersAgree (context : RepoContext) (issues : List Issue) (rules files : List Tally)
    (omitted : Nat) : Prop where
  /-- The headline names the number of issues and the number of distinct files. -/
  body_eq :
    let n := issues.length
    let f := (issues.map Issue.file).toFinset.card
    body context issues n = "\n".intercalate
      ([marker, "## 🔍 Tempo Lint Results", "", "### Summary", "",
          "Found **" ++ toString n ++ "** " ++ (if n = 1 then "issue" else "issues") ++ " in **" ++
            toString f ++ "** " ++ (if f = 1 then "file" else "files") ++ ".", ""] ++
        severityTable issues ++ [""] ++ ruleSection context issues ++ fileSection issues ++ footer)
  /-- The counts in the table sum to the number of issues. -/
  table_eq :
    let counts := Issue.count issues
    severityTable issues = ["| Severity | Count |", "|----------|-------|",
      "| ❌ Errors | " ++ toString counts.error ++ " |",
      "| ⚠️ Warnings | " ++ toString counts.warning ++ " |",
      "| 💡 Hints | " ++ toString counts.hint ++ " |"] ∧
    counts.error + counts.warning + counts.hint = issues.length
  /-- There is one block for every rule, and the sizes of the blocks sum to the number of issues. -/
  ruleSection_eq : ruleSection context issues =
    ["### Issues by Rule", ""] ++ rules.flatMap (Tally.lines (ruleBullet context))
  rules_nodup : (rules.map Tally.name).Nodup
  mem_rules : ∀ id, id ∈ rules.map Tally.name ↔ id ∈ issues.map Issue.ruleId
  rules_size : (rules.map Tally.size).sum = issues.length
  rules_fit : ∀ b ∈ rules, b.Fits Issue.ruleId issues
  /-- The blocks for the files and the files without a block are as many as the headline says. -/
  fileSection_eq : fileSection issues = ["### Issues by File", ""] ++
    (if omitted = 0 then []
      else ["_Showing " ++ toString files.length ++ " of " ++
        toString (issues.map Issue.file).toFinset.card ++ " files._", ""]) ++
    files.flatMap (Tally.lines fileBullet)
  files_nodup : (files.map Tally.name).Nodup
  mem_files : ∀ file ∈ files.map Tally.name, file ∈ issues.map Issue.file
  files_length : files.length + omitted = (issues.map Issue.file).toFinset.card
  files_size : omitted = 0 → (files.map Tally.size).sum = issues.length
  files_fit : ∀ b ∈ files, b.Fits Issue.file issues

/-- The headline of a comment names its two numbers. -/
theorem headline_some (n f : Nat) :
    headline (some (n : Int)) f = "Found **" ++ toString n ++ "** " ++
      (if n = 1 then "issue" else "issues") ++ " in **" ++ toString f ++ "** " ++
      (if f = 1 then "file" else "files") ++ "." := by
  have hfiles : Text.pluralize (f : Int) "file" = if f = 1 then "file" else "files" := by
    rw [Text.pluralize]
    by_cases hf : f = 1
    · subst hf
      rfl
    · rw [if_neg (by simpa using hf), if_neg hf]
      rfl
  rw [headline]
  simp only [Option.map_some, Option.getD_some, pluralize_issue, hfiles, Text.orEmptyList,
    Tally.noun, String.append_assoc]
  rfl

/-- **All numbers of a comment agree**, for all issues whatever their fields hold. -/
theorem numbers_agree (context : RepoContext) (issues : List Issue) (hissues : issues ≠ []) :
    ∃ (rules files : List Tally) (omitted : Nat),
      NumbersAgree context issues rules files omitted := by
  have hfiles : (ranked (Issue.byFile issues)).length = (issues.map Issue.file).toFinset.card := by
    rw [(ranked_perm _).length_eq, Issue.byFile, length_groupBy]
  refine ⟨(ranked (Issue.byRule issues)).map (Tally.ofGroup issuesPerRule),
    ((ranked (Issue.byFile issues)).take filesShown).map (Tally.ofGroup issuesPerFile),
    (ranked (Issue.byFile issues)).length - filesShown, ?_⟩
  exact {
    body_eq := by
      have hlength : ¬ ((issues.length : Int) == 0) = true := by
        simpa using hissues
      have hempty : issues.isEmpty = false := by
        simpa using hissues
      have hcount : (Issue.byFile issues).length = (issues.map Issue.file).toFinset.card :=
        length_groupBy _ issues
      dsimp only
      rw [body, if_neg hlength, issueLines, hempty, if_neg Bool.false_ne_true, headline_some, hcount]
      simp only [List.append_assoc]
    table_eq := ⟨rfl, Issue.total_count issues⟩
    ruleSection_eq := by
      have hgroups : ∀ group ∈ ranked (Issue.byRule issues), group.2 ≠ [] :=
        fun _ => ne_nil_of_mem_ranked
      rw [ruleSection, ← blockLines_map (by decide) _ hgroups]
      rfl
    rules_nodup := by
      rw [List.map_map]
      exact (names_ranked_perm _ _).nodup_iff.2 (nodup_firstOccurrences _)
    mem_rules := fun id => by
      rw [List.map_map]
      exact (names_ranked_perm _ _).mem_iff.trans mem_firstOccurrences
    rules_size := sum_size_ranked _ _ _
    rules_fit := fun b hb => by
      obtain ⟨group, hgroup, rfl⟩ := List.mem_map.1 hb
      exact Tally.ofGroup_fits _ hgroup
    fileSection_eq := by
      have hgroups : ∀ group ∈ (ranked (Issue.byFile issues)).take filesShown, group.2 ≠ [] :=
        fun _ h => ne_nil_of_mem_ranked (List.mem_of_mem_take h)
      rw [← blockLines_map (by decide) _ hgroups, fileSection, List.length_map, List.length_take,
        hfiles]
      by_cases hcut : filesShown < (issues.map Issue.file).toFinset.card
      · rw [if_pos hcut, if_neg (by omega), Nat.min_eq_left (Nat.le_of_lt hcut)]
        rfl
      · rw [if_neg hcut, if_pos (by omega)]
        rfl
    files_nodup := by
      rw [List.map_map]
      refine List.Nodup.sublist ((List.take_sublist _ _).map _) ?_
      exact (names_ranked_perm _ _).nodup_iff.2 (nodup_firstOccurrences _)
    mem_files := fun file hfile => by
      rw [List.map_map] at hfile
      obtain ⟨group, hgroup, rfl⟩ := List.mem_map.1 hfile
      exact (eq_of_mem_ranked (List.mem_of_mem_take hgroup)).1
    files_length := by
      rw [List.length_map, List.length_take, hfiles]
      omega
    files_size := fun h => by
      rw [List.take_of_length_le (Nat.sub_eq_zero_iff_le.1 h)]
      exact sum_size_ranked _ _ _
    files_fit := fun b hb => by
      obtain ⟨group, hgroup, rfl⟩ := List.mem_map.1 hb
      exact Tally.ofGroup_fits _ (List.mem_of_mem_take hgroup) }

/-- Issues of two rules in two files; one file has more issues than a block shows. -/
def crowdedFile : List Issue :=
  List.replicate 6 ⟨"a", "error", "m", "x.rs", 1, 1, none⟩ ++
    [⟨"b", "note", "m", "y.rs", 2, 1, none⟩]

/-- A file that is cut, and what is left of it, count for all seven issues of a comment. -/
theorem crowdedFile_numbers_agree :
    ∃ (rules files : List Tally) (omitted : Nat),
      NumbersAgree {} crowdedFile rules files omitted ∧ rules.length = 2 ∧
      (rules.map Tally.size).sum = 7 ∧ files.length + omitted = 2 ∧
      ∀ b ∈ files, b.shown.length + b.left = b.size := by
  obtain ⟨rules, files, omitted, h⟩ := numbers_agree {} crowdedFile (by decide)
  have hnames : (rules.map Tally.name).Perm ["a", "b"] := by
    refine (List.perm_ext_iff_of_nodup h.rules_nodup (by decide)).2 fun id => ?_
    rw [h.mem_rules]
    simp [crowdedFile]
  have hcard : (crowdedFile.map Issue.file).toFinset.card = 2 := by decide
  exact ⟨rules, files, omitted, h, by simpa using hnames.length_eq, h.rules_size,
    h.files_length.trans hcard, fun b hb => (h.files_fit b hb).length_eq⟩

end LintReport.Comment
