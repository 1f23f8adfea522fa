import LintReport.Proofs.Comment.Numbers
import LintReport.Proofs.Text.Markup

/-!
# The Sections of a Comment

Issues are listed twice, by rule and by file. Both lists are rankings, largest group first and
groups of one size as they were met, and both show a group as a block whose summary and bullets can
be told from the issues. The list of rules is whole. The list of files is cut, and then a line above
it says so; what is cut comes after all that is shown.

## Main definitions

* `ShowsRules`, `ShowsFiles`: what the two sections show of some issues.

## Main results

* `fileSection_shows`: **the section of files shows the files that come first**.
* `ruleSection_shows`: **the section of rules shows every rule**, however rules are interleaved.
-/

namespace LintReport.Comment

/-! ### Blocks -/

/-- The bullet of an issue in the block of its rule links to where it is, and says what it is. -/
theorem ruleBullet_eq (context : RepoContext) : ruleBullet context = fun issue =>
    "- " ++ context.locationLink issue.file (some issue.line) ++ " — " ++ issue.message := by
  funext issue
  rw [ruleBullet]
  simp only [String.append_assoc]
  rfl

/-- The bullet of an issue in the block of its file tells its line, its severity and its rule. -/
theorem fileBullet_eq : fileBullet = fun issue =>
    "- Line " ++ toString issue.line ++ ": " ++ Severity.iconOf issue.severity ++ " " ++
      issue.severity ++ " `" ++ issue.ruleId ++ "`" := by
  funext issue
  rw [fileBullet]
  simp only [String.append_assoc]
  rfl

/-- The block of a key: its issues are those that have it, and the first `limit` have a bullet. -/
def blockOf (limit : Nat) (key : Issue → String) (issues : List Issue) (name : String) : Tally :=
  Tally.ofGroup limit (name, issues.filter fun issue => key issue == name)

/-- The blocks of the groups of some keys are those of the keys. -/
theorem blockLines_keys (limit : Nat) (hlimit : 0 < limit) (bullet key : Issue → String)
    (issues : List Issue) {names : List String} (hnames : ∀ name ∈ names, name ∈ issues.map key) :
    blockLines ((names.map fun name =>
        (name, issues.filter fun issue => key issue == name)).map (groupBlock limit bullet)) =
      names.flatMap fun name => (blockOf limit key issues name).lines bullet := by
  rw [blockLines_map hlimit bullet, List.map_map, List.flatMap_map]
  · rfl
  · intro group hgroup
    obtain ⟨name, hname, rfl⟩ := List.mem_map.1 hgroup
    exact mem_map_key_iff.1 (hnames name hname)

/-! ### The section of files -/

/-- **What the section of files shows**: a block for each of the files that come first, ten of them
at most, with bullets for the first five issues of the file. -/
structure ShowsFiles (issues : List Issue) (files : List String) : Prop where
  section_eq :
    let f := (issues.map Issue.file).toFinset.card
    fileSection issues = ["### Issues by File", ""] ++
      (if 10 < f then ["_Showing 10 of " ++ toString f ++ " files._", ""] else []) ++
      files.flatMap fun file => (blockOf 5 Issue.file issues file).lines fun issue =>
        "- Line " ++ toString issue.line ++ ": " ++ Severity.iconOf issue.severity ++ " " ++
          issue.severity ++ " `" ++ issue.ruleId ++ "`"
  length_eq : files.length = min 10 (issues.map Issue.file).toFinset.card
  leads : Leads Issue.file issues files

/-- **The section of files shows the files that come first**: those with most issues, and of files
with as many issues those that were met first. -/
theorem fileSection_shows (issues : List Issue) : ∃ files, ShowsFiles issues files := by
  have hleads := take_rankedKeys_leads Issue.file issues filesShown
  refine ⟨_, ?_, ?_, hleads⟩
  · dsimp only
    rw [← fileBullet_eq, ← blockLines_keys 5 (by decide) _ _ _ hleads.subset, fileSection,
      Issue.byFile, length_ranked, ranked_groupBy_eq, ← List.map_take]
    rfl
  · rw [List.length_take, length_rankedKeys]
    rfl

/-! ### The section of rules -/

/-- **What the section of rules shows**: a block for every rule, in the order of rules, with bullets
for the first ten issues of the rule and its id in a form that holds no markup. -/
structure ShowsRules (context : RepoContext) (issues : List Issue) (rules : List String) :
    Prop where
  section_eq : ruleSection context issues = ["### Issues by Rule", ""] ++
    rules.flatMap fun id => (blockOf 10 Issue.ruleId issues id).lines fun issue =>
      "- " ++ context.locationLink issue.file (some issue.line) ++ " — " ++ issue.message
  complete : ∀ id ∈ issues.map Issue.ruleId, id ∈ rules
  leads : Leads Issue.ruleId issues rules
  escaped : ∀ id ∈ rules,
    (∀ mark ∈ ['<', '>', Text.doubleQuote, Text.apostrophe],
      mark ∉ (Text.escapeMarkup id).toList) ∧
    Text.unescapeMarkup (Text.escapeMarkup id) = id

/-- **The section of rules shows every rule**, the rules with most issues first, and it is the same
however the issues of different rules are interleaved. -/
theorem ruleSection_shows (context : RepoContext) (issues : List Issue) :
    (∃ rules, ShowsRules context issues rules) ∧
      ∀ issues', Interleaves Issue.ruleId issues issues' →
        ruleSection context issues' = ruleSection context issues := by
  constructor
  · have hleads := rankedKeys_leads Issue.ruleId issues
    refine ⟨_, ?_, fun id => mem_rankedKeys.2, hleads, fun id _ =>
      ⟨Text.notMem_escapeMarkup id, Text.unescapeMarkup_escapeMarkup id⟩⟩
    rw [← ruleBullet_eq, ← blockLines_keys 10 (by decide) _ _ _ hleads.subset, ruleSection,
      Issue.byRule, ranked_groupBy_eq]
    rfl
  · intro issues' h
    rw [ruleSection, Issue.byRule, h.ranked_eq]
    rfl

/-- Issues of two rules, as they are found in files. -/
def mixedRules : List Issue :=
  [⟨"<a>", "error", "m", "x.rs", 1, 1, none⟩, ⟨"b", "hint", "m", "x.rs", 2, 1, none⟩,
    ⟨"<a>", "error", "n", "y.rs", 3, 1, none⟩]

/-- The same issues, one rule after the other. -/
def sortedRules : List Issue :=
  [⟨"<a>", "error", "m", "x.rs", 1, 1, none⟩, ⟨"<a>", "error", "n", "y.rs", 3, 1, none⟩,
    ⟨"b", "hint", "m", "x.rs", 2, 1, none⟩]

/-- Sorting issues by their rules changes nothing in the section of rules, which has two blocks. -/
theorem mixedRules_section :
    (∃ rules, ShowsRules {} mixedRules rules ∧ rules.length = 2) ∧
      ruleSection {} sortedRules = ruleSection {} mixedRules := by
  obtain ⟨⟨rules, hrules⟩, hsame⟩ := ruleSection_shows {} mixedRules
  refine ⟨⟨rules, hrules, ?_⟩, hsame _ ⟨fun name => ?_, by decide⟩⟩
  · have hids (id : String) : id ∈ mixedRules.map Issue.ruleId ↔ id ∈ ["<a>", "b"] := by
      simp only [mixedRules, List.map_cons, List.map_nil, List.mem_cons, List.not_mem_nil, or_false]
      tauto
    have hnames : rules.Perm ["<a>", "b"] :=
      (List.perm_ext_iff_of_nodup hrules.leads.nodup (by decide)).2 fun id =>
        ⟨fun h => (hids id).1 (hrules.leads.subset id h),
          fun h => hrules.complete id ((hids id).2 h)⟩
    exact hnames.length_eq
  · by_cases ha : "<a>" = name
    · subst ha
      rfl
    · by_cases hb : "b" = name
      · subst hb
        rfl
      · simp [mixedRules, sortedRules, ha, hb]

end LintReport.Comment
