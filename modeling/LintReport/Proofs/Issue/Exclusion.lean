import LintReport.Proofs.Issue.FirstOccurrences
import LintReport.Proofs.Text.Blank
import LintReport.Proofs.Text.Lines

/-!
# What Excluding Rules Means

The text that excludes rules is cut at its commas, and what is left of a piece without its blanks is
the name of a rule, unless nothing is left. The names that are read are trimmed, not empty and
without commas, and every list of such names reads back from the text in which they stand with
commas between them, whatever blanks are put around them. The issues that are kept are told by which
names there are, so that it does not matter how they are divided among several runs.

## Main definitions

* `Issue.IsRuleName`: what can be read as the name of a rule.
* `Issue.Padded`: a text with blanks around it.
* `Issue.ExclusionMeans`: what a text and a list of issues give.

## Main results

* `Issue.parseExclusions_padded`: **names read back**, with any blanks around them.
* `Issue.exclude_exclude`, `Issue.exclude_issues_congr`: the issues kept depend on the set of names
  only.
* `Issue.exclusions_mean`: **the option means what it says**.
-/

namespace LintReport.Issue

/-! ### Reading names -/

/-- What can be read as the name of a rule: a text that is trimmed, not empty and without commas. -/
structure IsRuleName (name : String) : Prop where
  ne_empty : name ≠ ""
  trim_eq : Text.trim name = name
  noComma : ',' ∉ name.toList

/-- A text with blanks around it. -/
def Padded (name text : String) : Prop :=
  ∃ before after, Text.isBlankText before = true ∧ Text.isBlankText after = true ∧
    text = before ++ name ++ after

/-- A comma is not blank. -/
theorem comma_notMem_of_isBlankText {s : String} (h : Text.isBlankText s = true) :
    ',' ∉ s.toList := by
  intro hmem
  exact absurd (List.all_eq_true.1 h _ hmem) (by decide)

/-- Blanks around a name are not read. -/
theorem Padded.trim_eq {name text : String} (h : Padded name text) :
    Text.trim text = Text.trim name := by
  obtain ⟨before, after, hbefore, hafter, rfl⟩ := h
  exact Text.trim_append_append hbefore hafter name

/-- Blanks around a name bring no comma with them. -/
theorem Padded.noComma {name text : String} (h : Padded name text) (hname : ',' ∉ name.toList) :
    ',' ∉ text.toList := by
  obtain ⟨before, after, hbefore, hafter, rfl⟩ := h
  rw [String.toList_append, String.toList_append, List.mem_append, List.mem_append]
  rintro ((hmem | hmem) | hmem)
  · exact comma_notMem_of_isBlankText hbefore hmem
  · exact hname hmem
  · exact comma_notMem_of_isBlankText hafter hmem

/-- **What is read from texts with commas between them**: the trim of each that is not blank. -/
theorem parseExclusions_intercalate {texts : List String}
    (h : ∀ text ∈ texts, ',' ∉ text.toList) :
    parseExclusions (some (",".intercalate texts)) =
      (texts.map Text.trim).filter fun name => !name.isEmpty := by
  cases texts with
  | nil => decide
  | cons text rest =>
    rw [parseExclusions, Option.getD_some, Text.splitAt_intercalate rfl (List.cons_ne_nil _ _) h]

/-- What is read is the name of a rule. -/
theorem isRuleName_of_mem {v name : String} (h : name ∈ parseExclusions (some v)) :
    IsRuleName name := by
  rw [parseExclusions, Option.getD_some, List.mem_filter, List.mem_map] at h
  obtain ⟨⟨piece, hpiece, rfl⟩, hne⟩ := h
  exact {
    ne_empty := by simpa using hne
    trim_eq := Text.trim_trim piece
    noComma := fun hcomma => Text.notMem_of_mem_splitAt hpiece (Text.mem_of_mem_trim hcomma) }

/-- **Names read back** from the text in which they stand with commas between them, with any blanks
around them. -/
theorem parseExclusions_padded {names texts : List String}
    (hnames : ∀ name ∈ names, IsRuleName name) (hpadded : List.Forall₂ Padded names texts) :
    parseExclusions (some (",".intercalate texts)) = names := by
  obtain ⟨hcommas, htrims⟩ :
      (∀ text ∈ texts, ',' ∉ text.toList) ∧ texts.map Text.trim = names := by
    induction hpadded with
    | nil => exact ⟨nofun, rfl⟩
    | cons hpad _ ih =>
      rw [List.forall_mem_cons] at hnames
      obtain ⟨hcommas, htrims⟩ := ih hnames.2
      refine ⟨List.forall_mem_cons.2 ⟨hpad.noComma hnames.1.noComma, hcommas⟩, ?_⟩
      rw [List.map_cons, hpad.trim_eq, hnames.1.trim_eq, htrims]
  rw [parseExclusions_intercalate hcommas, htrims, List.filter_eq_self]
  intro name hname
  simpa using (hnames name hname).ne_empty

/-! ### Keeping issues -/

/-- **Excluding twice is excluding once**: the second list is added to the first. -/
theorem exclude_exclude (first second : List String) (issues : List Issue) :
    (exclude second (exclude first issues).issues).issues =
      (exclude (first ++ second) issues).issues := by
  simp only [exclude, List.filter_filter]
  refine List.filter_congr fun issue _ => ?_
  rw [Bool.eq_iff_iff]
  simp [and_comm]

/-- **The issues that are kept depend on the set of names only.** -/
theorem exclude_issues_congr {names others : List String} (h : ∀ id, id ∈ names ↔ id ∈ others)
    (issues : List Issue) : (exclude names issues).issues = (exclude others issues).issues := by
  refine List.filter_congr fun issue _ => ?_
  rw [Bool.eq_iff_iff]
  simp [h]

/-! ### The option -/

/-- **What a text that excludes rules means** for a list of issues. -/
structure ExclusionMeans (v : String) (issues : List Issue) : Prop where
  /-- The text is cut at its commas, and the trims of the pieces that are not blank are the names of
  rules. The issues of all other rules are kept, in order, and the names that no issue has are
  warned about, once each, in the order in which they are first met. -/
  excludes : ∃ pieces names missing : List String,
    pieces ≠ [] ∧ (∀ piece ∈ pieces, ',' ∉ piece.toList) ∧ ",".intercalate pieces = v ∧
    names = (pieces.filter fun piece => !Text.isBlankText piece).map Text.trim ∧
    exclude (parseExclusions (some v)) issues =
      ⟨issues.filter fun issue => issue.ruleId ∉ names, missing.map Warning.notFound⟩ ∧
    (∀ id, id ∈ missing ↔ id ∈ names ∧ ∀ issue ∈ issues, issue.ruleId ≠ id) ∧
    missing.Pairwise fun a b => names.idxOf a < names.idxOf b
  /-- A list of names reads back. -/
  reads_back : ∀ names, (∀ name ∈ names, IsRuleName name) →
    parseExclusions (some (",".intercalate names)) = names
  /-- So do the names that are read, with any blanks around them. -/
  rereads : ∀ texts, List.Forall₂ Padded (parseExclusions (some v)) texts →
    parseExclusions (some (",".intercalate texts)) = parseExclusions (some v)
  /-- Two lists that are applied one after the other keep what they keep together. -/
  composes : ∀ first second, (exclude second (exclude first issues).issues).issues =
    (exclude (first ++ second) issues).issues
  /-- Lists of the same names keep the same issues. -/
  depends_on_set : ∀ names others, (∀ id, id ∈ names ↔ id ∈ others) →
    (exclude names issues).issues = (exclude others issues).issues

/-- What is read from a text are the trims of its pieces that are not blank. -/
theorem parseExclusions_eq (v : String) :
    parseExclusions (some v) =
      ((Text.splitAt ',' v).filter fun piece => !Text.isBlankText piece).map Text.trim := by
  rw [parseExclusions, Option.getD_some, List.filter_map]
  congr 1
  refine List.filter_congr fun piece _ => ?_
  rw [Function.comp_apply, Bool.eq_iff_iff, Bool.not_eq_true', Bool.not_eq_true',
    ← Bool.not_eq_true, ← Bool.not_eq_true, String.isEmpty_iff, Text.trim_eq_empty_iff]

/-- **The option means what it says**, for every text and all issues. -/
theorem exclusions_mean (v : String) (issues : List Issue) : ExclusionMeans v issues where
  excludes := by
    refine ⟨Text.splitAt ',' v, parseExclusions (some v),
      (firstOccurrences (parseExclusions (some v))).filter fun id =>
        !issues.any fun issue => issue.ruleId == id,
      ?_, fun _ => Text.notMem_of_mem_splitAt, Text.intercalate_splitAt rfl v,
      parseExclusions_eq v, ?_, fun id => ?_, ?_⟩
    · rw [Text.splitAt, ne_eq, List.map_eq_nil_iff]
      exact Text.splitChars_ne_nil _
    · rw [exclude, Selection.mk.injEq, and_iff_left rfl]
      refine List.filter_congr fun issue _ => ?_
      rw [Bool.eq_iff_iff]
      simp
    · simp only [List.mem_filter, mem_firstOccurrences, Bool.not_eq_true', List.any_eq_false,
        beq_iff_eq]
    · exact (firstOccurrences_pairwise _).filter _
  reads_back names hnames := by
    refine parseExclusions_padded hnames (List.forall₂_same.2 fun name _ => ?_)
    exact ⟨"", "", rfl, rfl, by rw [String.empty_append, String.append_empty]⟩
  rereads texts hpadded := parseExclusions_padded (fun _ => isRuleName_of_mem) hpadded
  composes first second := exclude_exclude first second issues
  depends_on_set _ _ h := exclude_issues_congr h issues

/-- Blanks, empty pieces and repeated names in a text. -/
example : parseExclusions (some "b, a ,, \u3000b,") = ["b", "a", "b"] := by decide +kernel

end LintReport.Issue
