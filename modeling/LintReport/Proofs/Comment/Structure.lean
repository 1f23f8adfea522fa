import LintReport.Proofs.Comment.Sections
import LintReport.Proofs.Markdown.Link
import LintReport.Proofs.Text.Lines

/-!
# The Structure of a Comment

A comment is written entry by entry and read line by line. The summaries of its blocks and its
bullets show texts as they are, apart from markup in the summaries. A text with a line break makes
its entry more than one line, and what stands behind the break is read like any other line: it can
open or end a block, or start a list item. The lines behind the first one of an entry are therefore
what its texts have added to the structure, and there is nothing else that a text can add.

## Main definitions

* `isFence`, `isItem`: lines that open or end a block, and lines that start a list item.
* `ruleBlocks`, `fileBlocks`: the blocks of a comment.
* `Reads`: what is read in some entries, and which lines their texts have added.
* `addedLines`: the lines that the texts of issues have added to a comment.
* `FencesKept`, `ItemsKept`, `LinesKept`: that a comment is read as it was written.

## Main results

* `reads_issueLines`: what is read in a comment.
* `addedLines_eq_nil_iff`: **which texts add lines**.
* `structure_kept_iff`: **when a comment is read as it was written**.
-/

namespace LintReport

/-! ### Texts with line breaks -/

/-- A number has no line break. -/
theorem newline_notMem_toString (i : Int) : '\n' ∉ (toString i).toList := fun h =>
  Json.ne_of_signOrDigit (Json.signOrDigit_of_mem_intChars h) ⟨by decide, rfl⟩ rfl

/-- Entities neither add nor take line breaks. -/
theorem Text.newline_mem_escapeMarkup_iff {s : String} :
    '\n' ∈ (escapeMarkup s).toList ↔ '\n' ∈ s.toList := by
  have hentities : ∀ entity ∈ entities, '\n' ∉ entity.2 := by decide
  rw [escapeMarkup, String.toList_ofList, List.mem_flatMap]
  constructor
  · rintro ⟨c, hc, hmem⟩
    rcases escapeMarkupChar_cases c with hentity | ⟨-, hself⟩
    · exact absurd hmem (hentities _ hentity)
    · rw [hself, List.mem_singleton] at hmem
      exact hmem ▸ hc
  · exact fun h => ⟨'\n', h, by decide⟩

namespace RepoContext

/-- The texts that a link shows as they are: the path, and the parts of the context where it has an
address. -/
def linkTexts (context : RepoContext) (path : String) : List String :=
  Text.trim path ::
    if shownPath path = "unknown" ∨ context.blobUrl? path none = none then []
    else [Text.dropTrailing '/' context.server, Text.trim context.repo, Text.trim context.sha]

/-- A path is shown with its line breaks. -/
theorem newline_mem_shownPath_iff {path : String} :
    '\n' ∈ (shownPath path).toList ↔ '\n' ∈ (Text.trim path).toList := by
  rw [shownPath]
  split
  · next h =>
    rw [h]
    decide
  · exact Iff.rfl

/-- The mark of a line has no line break. -/
theorem newline_notMem_lineMark {mark : String} (h : '\n' ∉ mark.toList) (line : Option Int) :
    '\n' ∉ (lineMark mark line).toList := by
  rw [lineMark_eq]
  cases positiveLine? line with
  | none => exact List.not_mem_nil
  | some n =>
    rw [String.toList_append, List.mem_append, not_or]
    exact ⟨h, newline_notMem_toString n⟩

/-- An encoded path has no line break. -/
theorem newline_notMem_percentEncode (s : String) : '\n' ∉ (Text.percentEncode s).toList := fun h =>
  absurd (Text.breaksTarget_of_mem (Text.pathForm_percentEncode s) h) (by decide)

/-- **A link has a line break** exactly when one of the texts that it shows has one. -/
theorem newline_mem_locationLink_iff (context : RepoContext) (path : String) (line : Option Int) :
    '\n' ∈ (context.locationLink path line).toList ↔
      ∃ text ∈ context.linkTexts path, '\n' ∈ text.toList := by
  have hnone : context.blobUrl? path line = none ↔ context.blobUrl? path none = none := by
    rw [blobUrl?_eq_none_iff, blobUrl?_eq_none_iff]
  have hmarks : '\n' ∉ "`".toList ∧ '\n' ∉ "[`".toList ∧ '\n' ∉ "`](".toList ∧ '\n' ∉ ")".toList ∧
      '\n' ∉ "/".toList ∧ '\n' ∉ "/blob/".toList := by
    decide
  have hline : '\n' ∉ (lineMark ":" line).toList := newline_notMem_lineMark (by decide) line
  have hanchor : '\n' ∉ (lineMark "#L" line).toList := newline_notMem_lineMark (by decide) line
  rw [locationLink_eq, linkTexts, List.exists_mem_cons_iff]
  by_cases hplain : shownPath path = "unknown" ∨ context.blobUrl? path none = none
  · have haddress : (if shownPath path = "unknown" then none else context.blobUrl? path line) =
        none := by
      split
      · rfl
      · next h => exact hnone.2 (hplain.resolve_left h)
    rw [haddress, if_pos hplain]
    simp only [String.toList_append, List.mem_append, hmarks, hline, newline_mem_shownPath_iff,
      false_or, or_false, List.not_mem_nil, false_and, exists_false]
  · rw [if_neg hplain]
    rw [not_or] at hplain
    obtain ⟨url, hurl⟩ := Option.ne_none_iff_exists'.1 fun h => hplain.2 (hnone.1 h)
    obtain ⟨-, -, rfl⟩ := eq_of_blobUrl?_eq_some hurl
    rw [if_neg hplain.1, hurl]
    simp only [base, String.toList_append, List.mem_append, hmarks, hline, hanchor,
      newline_mem_shownPath_iff, newline_notMem_percentEncode, false_or, or_false,
      List.exists_mem_cons_iff, List.not_mem_nil, false_and, exists_false, or_assoc]

end RepoContext

namespace Comment

open Text (openingLine laterLines)

/-! ### Lines -/

/-- Whether a line opens or ends a collapsible block. -/
def isFence (line : String) : Bool := line == "<details>" || line == "</details>"

/-- Whether a line starts a list item. -/
def isItem (line : String) : Bool := "- ".toList.isPrefixOf line.toList

/-- A text is an item exactly when its first line is one. -/
theorem isItem_openingLine (s : String) : isItem (openingLine s) = isItem s := by
  rw [Bool.eq_iff_iff, isItem, isItem, List.isPrefixOf_iff_prefix, List.isPrefixOf_iff_prefix,
    Text.prefix_openingLine_iff (by decide)]

/-- A text that starts otherwise opens and ends no block. -/
theorem isFence_eq_false {part : List Char} {s : String} (hpart : part <+: s.toList)
    (hopens : ¬ part <+: "<details>".toList) (hends : ¬ part <+: "</details>".toList) :
    isFence s = false := by
  rw [isFence, Bool.or_eq_false_iff, beq_eq_false_iff_ne, beq_eq_false_iff_ne]
  exact ⟨fun h => hopens (h ▸ hpart), fun h => hends (h ▸ hpart)⟩

section Filter

variable {p : String → Bool} {entries : List String}

/-- **The lines of a kind in some entries** are the entries of that kind, by their first lines, if
the other lines of the entries are of another kind. -/
theorem filter_lines (hopening : ∀ entry ∈ entries, p (openingLine entry) = p entry)
    (hlater : ∀ line ∈ entries.flatMap laterLines, p line = false) :
    (entries.flatMap (Text.splitAt '\n')).filter p = (entries.filter p).map openingLine := by
  induction entries with
  | nil => rfl
  | cons entry rest ih =>
    rw [List.forall_mem_cons] at hopening
    rw [List.flatMap_cons, List.forall_mem_append] at hlater
    have hnone : (laterLines entry).filter p = [] :=
      List.filter_eq_nil_iff.2 fun line hline => by simp [hlater.1 line hline]
    rw [List.flatMap_cons, List.filter_append, ih hopening.2 hlater.2, Text.splitAt_eq_cons,
      List.filter_cons, List.filter_cons, hopening.1, hnone]
    split <;> rfl

/-- Lines of a kind are counted among the entries and among their later lines. -/
theorem length_filter_lines (hopening : ∀ entry ∈ entries, p (openingLine entry) = p entry) :
    ((entries.flatMap (Text.splitAt '\n')).filter p).length =
      (entries.filter p).length + ((entries.flatMap laterLines).filter p).length := by
  induction entries with
  | nil => rfl
  | cons entry rest ih =>
    rw [List.forall_mem_cons] at hopening
    rw [List.flatMap_cons, List.flatMap_cons, List.filter_append, List.filter_append,
      List.length_append, List.length_append, ih hopening.2, Text.splitAt_eq_cons,
      List.filter_cons, List.filter_cons, hopening.1]
    split
    · rw [List.length_cons, List.length_cons]
      omega
    · omega

/-- Entries are read line by line as many as they are exactly when they have no later lines. -/
theorem lines_eq_iff :
    entries.flatMap (Text.splitAt '\n') = entries ↔ entries.flatMap laterLines = [] := by
  constructor
  · intro h
    have hlength := @length_filter_lines (fun _ => true) entries fun _ _ => rfl
    rw [h, List.filter_true, List.filter_true] at hlength
    exact List.length_eq_zero_iff.1 (by omega)
  · intro h
    rw [List.flatMap_eq_nil_iff] at h
    exact Text.flatMap_splitAt_of_notMem fun entry hentry =>
      Text.laterLines_eq_nil_iff.1 (h entry hentry)

end Filter

/-! ### What is read in entries -/

/-- The lines that open and end some blocks, one after the other. -/
def fences (blocks : Nat) : List String :=
  (List.replicate blocks ["<details>", "</details>"]).flatten

/-- **What is read in some entries**: blocks, items, and the lines that their texts have added. -/
structure Reads (entries : List String) (blocks items : Nat) (added : List String) : Prop where
  opening : ∀ entry ∈ entries, isFence (openingLine entry) = isFence entry
  fences_eq : entries.filter isFence = fences blocks
  items_eq : (entries.filter isItem).length = items
  added_eq : entries.flatMap laterLines = added

/-- What is read in entries is read one part after the other. -/
theorem Reads.append {front back : List String} {blocks blocks' items items' : Nat}
    {added added' : List String} (h : Reads front blocks items added)
    (h' : Reads back blocks' items' added') :
    Reads (front ++ back) (blocks + blocks') (items + items') (added ++ added') where
  opening := List.forall_mem_append.2 ⟨h.opening, h'.opening⟩
  fences_eq := by
    rw [List.filter_append, h.fences_eq, h'.fences_eq, fences, fences, fences,
      List.replicate_add, List.flatten_append]
  items_eq := by rw [List.filter_append, List.length_append, h.items_eq, h'.items_eq]
  added_eq := by rw [List.flatMap_append, h.added_eq, h'.added_eq]

/-- Whether an entry is one line that is neither fence nor item. -/
def IsPlain (entry : String) : Prop :=
  '\n' ∉ entry.toList ∧ isFence entry = false ∧ isItem entry = false

instance (entry : String) : Decidable (IsPlain entry) := inferInstanceAs (Decidable (_ ∧ _ ∧ _))

/-- An entry is plain if it has no line break and starts neither as a fence nor as an item does. -/
theorem isPlain_of_prefix {entry : String} {c : Char} (hstart : [c] <+: entry.toList)
    (hc : c ≠ '<' ∧ c ≠ '-') (hline : '\n' ∉ entry.toList) : IsPlain entry := by
  obtain ⟨rest, hentry⟩ := hstart
  refine ⟨hline, isFence_eq_false ⟨rest, hentry⟩ ?_ ?_, ?_⟩
  · exact fun h => hc.1 (List.cons_prefix_cons.1 h).1
  · exact fun h => hc.1 (List.cons_prefix_cons.1 h).1
  · rw [isItem, ← hentry, Bool.eq_false_iff, ne_eq, List.isPrefixOf_iff_prefix]
    exact fun h => hc.2 (List.cons_prefix_cons.1 h).1.symm

/-- Nothing is read in plain entries. -/
theorem Reads.of_plain {entries : List String} (h : ∀ entry ∈ entries, IsPlain entry) :
    Reads entries 0 0 [] where
  opening entry hentry := by rw [Text.openingLine_of_notMem (h entry hentry).1]
  fences_eq := List.filter_eq_nil_iff.2 fun entry hentry => by simp [(h entry hentry).2.1]
  items_eq := by
    rw [List.length_eq_zero_iff, List.filter_eq_nil_iff]
    exact fun entry hentry => by simp [(h entry hentry).2.2]
  added_eq := List.flatMap_eq_nil_iff.2 fun entry hentry =>
    Text.laterLines_eq_nil_iff.2 (h entry hentry).1

namespace Reads

variable {entries : List String} {blocks items : Nat} {added : List String}
  (h : Reads entries blocks items added)

include h

/-- **Fences alternate** exactly when none is added. -/
theorem fences_iff : (entries.flatMap (Text.splitAt '\n')).filter isFence = fences blocks ↔
    ∀ line ∈ added, isFence line = false := by
  constructor
  · intro heq line hline
    have hlength := length_filter_lines h.opening
    rw [heq, h.fences_eq, h.added_eq] at hlength
    have hnone := List.length_eq_zero_iff.1 (by omega : (added.filter isFence).length = 0)
    exact Bool.eq_false_iff.2 (List.filter_eq_nil_iff.1 hnone line hline)
  · intro hnone
    have hopening : openingLine "<details>" = "<details>" ∧
        openingLine "</details>" = "</details>" := by
      decide
    rw [filter_lines h.opening (h.added_eq ▸ hnone), h.fences_eq, fences, List.map_flatten,
      List.map_replicate, List.map_cons, List.map_singleton, hopening.1, hopening.2]

/-- **Items are as many as there were** exactly when none is added. -/
theorem items_iff : ((entries.flatMap (Text.splitAt '\n')).filter isItem).length = items ↔
    ∀ line ∈ added, isItem line = false := by
  rw [length_filter_lines fun entry _ => isItem_openingLine entry, h.items_eq, h.added_eq,
    Nat.add_eq_left, List.length_eq_zero_iff, List.filter_eq_nil_iff]
  simp only [Bool.not_eq_true]

end Reads

/-! ### Blocks -/

namespace Tally

/-- The summary of a block. -/
def summary (b : Tally) : String :=
  "<summary><code>" ++ Text.escapeMarkup b.name ++ "</code> (" ++ toString b.size ++ " " ++
    noun b.size ++ ")</summary>"

/-- The bullets of a block: one for every issue that is shown, and one for the rest. -/
def items (bullet : Issue → String) (b : Tally) : List String := b.shown.map bullet ++ rest b.left

/-- How many bullets a block has. -/
def itemCount (b : Tally) : Nat := b.shown.length + if b.left = 0 then 0 else 1

/-- The lines that the texts in a block add to it. -/
def addedLines (bullet : Issue → String) (b : Tally) : List String :=
  laterLines b.summary ++ b.shown.flatMap fun issue => laterLines (bullet issue)

/-- The lines of a block are its fences, its summary and its bullets. -/
theorem lines_eq (bullet : Issue → String) (b : Tally) :
    b.lines bullet = ["<details>", b.summary, ""] ++ b.items bullet ++ ["", "</details>", ""] := by
  rw [lines, items, ← List.append_assoc]
  rfl

theorem length_items (bullet : Issue → String) (b : Tally) :
    (b.items bullet).length = b.itemCount := by
  rw [items, itemCount, List.length_append, List.length_map, rest]
  split <;> rfl

/-- The noun for a number of issues has no line break. -/
theorem newline_notMem_noun (n : Nat) : '\n' ∉ (noun n).toList := by
  rw [noun]
  split <;> decide

/-- The bullet for the rest is one line that starts an item. -/
theorem of_mem_rest {left : Nat} {entry : String} (h : entry ∈ rest left) :
    "- ".toList <+: entry.toList ∧ '\n' ∉ entry.toList := by
  have hwords : '\n' ∉ "- _...and ".toList ∧ '\n' ∉ " more ".toList ∧ '\n' ∉ "_".toList := by decide
  rw [rest] at h
  split at h
  · cases h
  · rw [List.mem_singleton] at h
    subst h
    have hleft := newline_notMem_toString (left : Int)
    simp only [String.toList_append, List.mem_append, hwords, newline_notMem_noun, or_false,
      false_or, List.append_assoc]
    have hstart : "- ".toList <+: "- _...and ".toList := by decide
    exact ⟨hstart.trans (List.prefix_append _ _), hleft⟩

/-- A summary has a line break exactly when the name in it has one. -/
theorem newline_mem_summary_iff {b : Tally} :
    '\n' ∈ b.summary.toList ↔ '\n' ∈ b.name.toList := by
  have hwords : '\n' ∉ "<summary><code>".toList ∧ '\n' ∉ "</code> (".toList ∧
      '\n' ∉ " ".toList ∧ '\n' ∉ ")</summary>".toList := by
    decide
  have hsize : '\n' ∉ (toString b.size).toList := newline_notMem_toString (b.size : Int)
  unfold summary
  simp only [String.toList_append, List.mem_append, hwords, hsize, newline_notMem_noun,
    Text.newline_mem_escapeMarkup_iff, false_or, or_false]

/-- **What is read in a block**: its fences, its bullets, and what its texts have added. -/
theorem reads {bullet : Issue → String}
    (hbullet : ∀ issue, "- ".toList <+: (bullet issue).toList) (b : Tally) :
    Reads (b.lines bullet) 1 b.itemCount (b.addedLines bullet) := by
  have hitem : ∀ entry ∈ b.items bullet, "- ".toList <+: entry.toList := by
    intro entry hentry
    obtain hshown | hrest := List.mem_append.1 hentry
    · obtain ⟨issue, -, rfl⟩ := List.mem_map.1 hshown
      exact hbullet issue
    · exact (of_mem_rest hrest).1
  have hsummary : "<summary>".toList <+: b.summary.toList := by
    have hstart : "<summary>".toList <+: "<summary><code>".toList := by decide
    unfold summary
    simp only [String.toList_append, List.append_assoc]
    exact hstart.trans (List.prefix_append _ _)
  -- what starts as a summary or a bullet does is no fence, and neither is its first line
  have hsummaries (s : String) (h : "<summary>".toList <+: s.toList) : isFence s = false :=
    isFence_eq_false h (by decide) (by decide)
  have hbullets (s : String) (h : "- ".toList <+: s.toList) : isFence s = false :=
    isFence_eq_false h (by decide) (by decide)
  have hsummaryItem : isItem b.summary = false := by
    rw [isItem, Bool.eq_false_iff, ne_eq, List.isPrefixOf_iff_prefix]
    intro h
    exact absurd (List.prefix_of_prefix_length_le h hsummary (by decide)) (by decide)
  have hfixed : isFence "<details>" = true ∧ isFence "" = false ∧ isFence "</details>" = true ∧
      isItem "<details>" = false ∧ isItem "" = false ∧ isItem "</details>" = false := by
    decide
  have hlater : laterLines "<details>" = [] ∧ laterLines "" = [] ∧
      laterLines "</details>" = [] := by
    decide
  rw [lines_eq]
  exact {
    opening := by
      have hopening : ∀ entry ∈ ["<details>", "", "</details>"],
          isFence (openingLine entry) = isFence entry := by
        decide
      intro entry hentry
      simp only [List.mem_append, List.mem_cons, List.not_mem_nil, or_false] at hentry
      rcases hentry with ((rfl | rfl | rfl) | hmem) | rfl | rfl | rfl
      · exact hopening _ (by decide)
      · rw [hsummaries _ hsummary,
          hsummaries _ ((Text.prefix_openingLine_iff (by decide)).2 hsummary)]
      · exact hopening _ (by decide)
      · rw [hbullets _ (hitem _ hmem),
          hbullets _ ((Text.prefix_openingLine_iff (by decide)).2 (hitem _ hmem))]
      · exact hopening _ (by decide)
      · exact hopening _ (by decide)
      · exact hopening _ (by decide)
    fences_eq := by
      have hnone : (b.items bullet).filter isFence = [] :=
        List.filter_eq_nil_iff.2 fun entry hentry => by simp [hbullets _ (hitem entry hentry)]
      simp [hfixed, hsummaries _ hsummary, hnone, fences]
    items_eq := by
      have hall : (b.items bullet).filter isItem = b.items bullet :=
        List.filter_eq_self.2 fun entry hentry =>
          List.isPrefixOf_iff_prefix.2 (hitem entry hentry)
      simp [hfixed, hsummaryItem, hall, length_items]
    added_eq := by
      have hrest : (rest b.left).flatMap laterLines = [] :=
        List.flatMap_eq_nil_iff.2 fun entry hentry =>
          Text.laterLines_eq_nil_iff.2 (of_mem_rest hentry).2
      simp [addedLines, items, hlater, hrest, List.flatMap_map] }

end Tally

/-- What is read in blocks is read one block after the other. -/
theorem reads_flatMap {bullet : Issue → String}
    (hbullet : ∀ issue, "- ".toList <+: (bullet issue).toList) (blocks : List Tally) :
    Reads (blocks.flatMap (Tally.lines bullet)) blocks.length (blocks.map Tally.itemCount).sum
      (blocks.flatMap (Tally.addedLines bullet)) := by
  induction blocks with
  | nil => exact .of_plain nofun
  | cons b blocks ih =>
    have hsum := (b.reads hbullet).append ih
    rw [Nat.add_comm 1] at hsum
    exact hsum

/-! ### The parts of a comment -/

/-- The bullet of an issue in the block of its rule starts an item. -/
theorem prefix_ruleBullet (context : RepoContext) (issue : Issue) :
    "- ".toList <+: (ruleBullet context issue).toList := by
  rw [ruleBullet_eq]
  simp only [String.toList_append, List.append_assoc]
  exact List.prefix_append _ _

/-- The bullet of an issue in the block of its file starts an item. -/
theorem prefix_fileBullet (issue : Issue) : "- ".toList <+: (fileBullet issue).toList := by
  have hstart : "- ".toList <+: "- Line ".toList := by decide
  rw [fileBullet_eq]
  simp only [String.toList_append, List.append_assoc]
  exact hstart.trans (List.prefix_append _ _)

/-- The blocks of the rules. -/
def ruleBlocks (issues : List Issue) : List Tally :=
  (rankedKeys Issue.ruleId issues).map (blockOf issuesPerRule Issue.ruleId issues)

/-- The blocks of the files that are shown. -/
def fileBlocks (issues : List Issue) : List Tally :=
  ((rankedKeys Issue.file issues).take filesShown).map (blockOf issuesPerFile Issue.file issues)

/-- The lines that the texts of issues add to a comment. -/
def addedLines (context : RepoContext) (issues : List Issue) : List String :=
  (ruleBlocks issues).flatMap (Tally.addedLines (ruleBullet context)) ++
    (fileBlocks issues).flatMap (Tally.addedLines fileBullet)

/-- The section of rules holds the blocks of the rules. -/
theorem ruleSection_eq (context : RepoContext) (issues : List Issue) :
    ruleSection context issues = ["### Issues by Rule", ""] ++
      (ruleBlocks issues).flatMap (Tally.lines (ruleBullet context)) := by
  rw [ruleBlocks, List.flatMap_map,
    ← blockLines_keys _ (by decide) _ _ _ fun _ => mem_rankedKeys.1, ruleSection, Issue.byRule,
    ranked_groupBy_eq]
  rfl

/-- The line above the files where not all of them are shown. -/
def cutNote (issues : List Issue) : List String :=
  let f := (issues.map Issue.file).toFinset.card
  if filesShown < f then ["_Showing 10 of " ++ toString f ++ " files._", ""] else []

/-- The section of files holds the blocks of the files that are shown. -/
theorem fileSection_eq (issues : List Issue) :
    fileSection issues = ["### Issues by File", ""] ++ cutNote issues ++
      (fileBlocks issues).flatMap (Tally.lines fileBullet) := by
  rw [fileBlocks, List.flatMap_map, ← blockLines_keys _ (by decide) _ _ _
    fun _ h => mem_rankedKeys.1 (List.mem_of_mem_take h), fileSection, Issue.byFile, length_ranked,
    ranked_groupBy_eq, ← List.map_take]
  rfl

/-- The headline is plain. -/
theorem isPlain_headline (n f : Nat) : IsPlain (headline (some (n : Int)) f) := by
  have hwords : '\n' ∉ "Found **".toList ∧ '\n' ∉ "** ".toList ∧ '\n' ∉ " in **".toList ∧
      '\n' ∉ ".".toList := by
    decide
  have hissues : '\n' ∉ (if n = 1 then "issue" else "issues").toList := by split <;> decide
  have hfiles : '\n' ∉ (if f = 1 then "file" else "files").toList := by split <;> decide
  have hn : '\n' ∉ (toString n).toList := newline_notMem_toString (n : Int)
  have hf : '\n' ∉ (toString f).toList := newline_notMem_toString (f : Int)
  have hstart : ['F'] <+: "Found **".toList := by decide
  rw [headline_some]
  refine isPlain_of_prefix (c := 'F') ?_ (by decide) ?_
  · simp only [String.toList_append, List.append_assoc]
    exact hstart.trans (List.prefix_append _ _)
  · simp only [String.toList_append, List.mem_append, hwords, hissues, hfiles, hn, hf, or_false,
      not_false_eq_true]

/-- A row of the table is plain. -/
theorem isPlain_row {label : String} (hlabel : ['|'] <+: label.toList ∧ '\n' ∉ label.toList)
    (n : Nat) : IsPlain (label ++ toString n ++ " |") := by
  have hn : '\n' ∉ (toString n).toList := newline_notMem_toString (n : Int)
  have hend : '\n' ∉ " |".toList := by decide
  refine isPlain_of_prefix (c := '|') ?_ (by decide) ?_
  · simp only [String.toList_append, List.append_assoc]
    exact hlabel.1.trans (List.prefix_append _ _)
  · simp only [String.toList_append, List.mem_append, hlabel.2, hn, hend, or_false,
      not_false_eq_true]

/-- The table is plain. -/
theorem isPlain_of_mem_severityTable {issues : List Issue} {entry : String}
    (h : entry ∈ severityTable issues) : IsPlain entry := by
  have htable : severityTable issues = ["| Severity | Count |", "|----------|-------|",
      "| ❌ Errors | " ++ toString (Issue.count issues).error ++ " |",
      "| ⚠️ Warnings | " ++ toString (Issue.count issues).warning ++ " |",
      "| 💡 Hints | " ++ toString (Issue.count issues).hint ++ " |"] := rfl
  rw [htable] at h
  simp only [List.mem_cons, List.not_mem_nil, or_false] at h
  rcases h with rfl | rfl | rfl | rfl | rfl
  · decide
  · decide
  · exact isPlain_row (by decide) _
  · exact isPlain_row (by decide) _
  · exact isPlain_row (by decide) _

/-- The line above the files is plain. -/
theorem isPlain_of_mem_cutNote {issues : List Issue} {entry : String} (h : entry ∈ cutNote issues) :
    IsPlain entry := by
  rw [cutNote] at h
  split at h
  · rw [List.mem_cons, List.mem_singleton] at h
    rcases h with rfl | rfl
    · have hwords : '\n' ∉ "_Showing 10 of ".toList ∧ '\n' ∉ " files._".toList := by decide
      have hstart : ['_'] <+: "_Showing 10 of ".toList := by decide
      have hf := newline_notMem_toString ((issues.map Issue.file).toFinset.card : Int)
      refine isPlain_of_prefix (c := '_') ?_ (by decide) ?_
      · simp only [String.toList_append, List.append_assoc]
        exact hstart.trans (List.prefix_append _ _)
      · simp only [String.toList_append, List.mem_append, hwords, or_false, false_or]
        exact hf
    · decide
  · cases h

/-- **What is read in a comment**: its blocks, its bullets, and what texts have added. -/
theorem reads_issueLines (context : RepoContext) {issues : List Issue} (hissues : issues ≠ []) :
    Reads (issueLines context issues (some (issues.length : Int)))
      ((ruleBlocks issues).length + (fileBlocks issues).length)
      (((ruleBlocks issues).map Tally.itemCount).sum +
        ((fileBlocks issues).map Tally.itemCount).sum)
      (addedLines context issues) := by
  have hempty : issues.isEmpty = false := by simpa using hissues
  have htop : Reads ([marker, "## 🔍 Tempo Lint Results", "", "### Summary", "",
      headline (some (issues.length : Int)) (Issue.byFile issues).length, ""] ++
      severityTable issues ++ ["", "### Issues by Rule", ""]) 0 0 [] := by
    refine .of_plain (List.forall_mem_append.2 ⟨List.forall_mem_append.2 ⟨?_, ?_⟩, by decide⟩)
    · have hfixed : ∀ entry ∈ [marker, "## 🔍 Tempo Lint Results", "", "### Summary"],
          IsPlain entry := by
        decide
      simp only [List.forall_mem_cons] at hfixed ⊢
      exact ⟨hfixed.1, hfixed.2.1, hfixed.2.2.1, hfixed.2.2.2.1, hfixed.2.2.1,
        isPlain_headline _ _, hfixed.2.2.1, fun _ h => absurd h List.not_mem_nil⟩
    · exact fun _ => isPlain_of_mem_severityTable
  have hmiddle : Reads (["### Issues by File", ""] ++ cutNote issues) 0 0 [] :=
    .of_plain (List.forall_mem_append.2 ⟨by decide, fun _ => isPlain_of_mem_cutNote⟩)
  have hfooter : Reads footer 0 0 [] := .of_plain (by decide)
  have hrules := reads_flatMap (prefix_ruleBullet context) (ruleBlocks issues)
  have hfiles := reads_flatMap prefix_fileBullet (fileBlocks issues)
  have hall := (((htop.append hrules).append hmiddle).append hfiles).append hfooter
  rw [issueLines, hempty, if_neg Bool.false_ne_true, ruleSection_eq, fileSection_eq, addedLines]
  simpa only [Nat.zero_add, Nat.add_zero, List.nil_append, List.append_nil, List.append_assoc,
    List.cons_append] using hall

/-! ### Texts that add lines -/

/-- **The names in a comment have no line breaks**: the rules, the places to which the rules link,
the files, and the severities. -/
structure NamesUnbroken (context : RepoContext) (issues : List Issue) : Prop where
  rules : ∀ issue ∈ issues, '\n' ∉ issue.ruleId.toList
  places : ∀ b ∈ ruleBlocks issues, ∀ issue ∈ b.shown,
    ∀ text ∈ context.linkTexts issue.file, '\n' ∉ text.toList
  files : ∀ b ∈ fileBlocks issues, '\n' ∉ b.name.toList
  severities : ∀ b ∈ fileBlocks issues, ∀ issue ∈ b.shown, '\n' ∉ issue.severity.toList

/-- The messages that are shown have no line breaks. -/
def MessagesUnbroken (issues : List Issue) : Prop :=
  ∀ b ∈ ruleBlocks issues, ∀ issue ∈ b.shown, '\n' ∉ issue.message.toList

/-- The blocks of the rules are named by the rules. -/
theorem mem_name_ruleBlocks {issues : List Issue} {id : String} :
    (∃ b ∈ ruleBlocks issues, b.name = id) ↔ id ∈ issues.map Issue.ruleId := by
  have hblocks : (∃ b ∈ ruleBlocks issues, b.name = id) ↔
      ∃ name ∈ rankedKeys Issue.ruleId issues, name = id := by
    simp only [ruleBlocks, List.mem_map, exists_exists_and_eq_and]
    exact Iff.rfl
  rw [hblocks, exists_eq_right, mem_rankedKeys]

/-- The issues of a block are issues of the comment. -/
theorem mem_of_mem_shown {key : Issue → String} {limit : Nat} {issues : List Issue} {name : String}
    {issue : Issue} (h : issue ∈ (blockOf limit key issues name).shown) : issue ∈ issues :=
  List.mem_of_mem_filter (List.mem_of_mem_take h)

/-- A block adds no lines exactly when its name and its bullets have no line breaks. -/
theorem Tally.addedLines_eq_nil_iff {bullet : Issue → String} {b : Tally} :
    b.addedLines bullet = [] ↔
      '\n' ∉ b.name.toList ∧ ∀ issue ∈ b.shown, '\n' ∉ (bullet issue).toList := by
  rw [addedLines, List.append_eq_nil_iff, List.flatMap_eq_nil_iff, Text.laterLines_eq_nil_iff,
    newline_mem_summary_iff]
  simp only [Text.laterLines_eq_nil_iff]

/-- The bullet of an issue in the block of its rule has the line breaks of its link and of its
message. -/
theorem newline_mem_ruleBullet_iff {context : RepoContext} {issue : Issue} :
    '\n' ∈ (ruleBullet context issue).toList ↔
      (∃ text ∈ context.linkTexts issue.file, '\n' ∈ text.toList) ∨
        '\n' ∈ issue.message.toList := by
  have hmarks : '\n' ∉ "- ".toList ∧ '\n' ∉ " — ".toList := by decide
  rw [ruleBullet_eq, ← context.newline_mem_locationLink_iff issue.file (some issue.line)]
  simp only [String.toList_append, List.mem_append, hmarks, false_or, or_false]

/-- The bullet of an issue in the block of its file has the line breaks of its severity and of its
rule. -/
theorem newline_mem_fileBullet_iff {issue : Issue} :
    '\n' ∈ (fileBullet issue).toList ↔
      '\n' ∈ issue.severity.toList ∨ '\n' ∈ issue.ruleId.toList := by
  have hmarks : '\n' ∉ "- Line ".toList ∧ '\n' ∉ ": ".toList ∧ '\n' ∉ " ".toList ∧
      '\n' ∉ " `".toList ∧ '\n' ∉ "`".toList := by
    decide
  have hicon : '\n' ∉ (Severity.iconOf issue.severity).toList := by
    rw [Severity.iconOf]
    cases Severity.ofText (Text.lower (Text.trim issue.severity)) <;> decide
  rw [fileBullet_eq]
  simp only [String.toList_append, List.mem_append, hmarks, hicon, newline_notMem_toString,
    false_or, or_false]

/-- **Which texts add lines**: a comment has no added lines exactly when neither the names nor the
messages in it have line breaks. -/
theorem addedLines_eq_nil_iff {context : RepoContext} {issues : List Issue} :
    addedLines context issues = [] ↔ NamesUnbroken context issues ∧ MessagesUnbroken issues := by
  rw [addedLines, List.append_eq_nil_iff, List.flatMap_eq_nil_iff, List.flatMap_eq_nil_iff]
  simp only [Tally.addedLines_eq_nil_iff, newline_mem_ruleBullet_iff, newline_mem_fileBullet_iff,
    not_or, not_exists, not_and]
  constructor
  · rintro ⟨hrules, hfiles⟩
    refine ⟨⟨?_, fun b hb issue hissue => ((hrules b hb).2 issue hissue).1,
      fun b hb => (hfiles b hb).1, fun b hb issue hissue => ((hfiles b hb).2 issue hissue).1⟩,
      fun b hb issue hissue => ((hrules b hb).2 issue hissue).2⟩
    intro issue hissue
    obtain ⟨b, hb, hname⟩ := mem_name_ruleBlocks.2 (List.mem_map_of_mem hissue)
    exact hname ▸ (hrules b hb).1
  · rintro ⟨hnames, hmessages⟩
    constructor
    · intro b hb
      refine ⟨?_, fun issue hissue =>
        ⟨hnames.places b hb issue hissue, hmessages b hb issue hissue⟩⟩
      obtain ⟨issue, hissue, hname⟩ := List.mem_map.1 (mem_name_ruleBlocks.1 ⟨b, hb, rfl⟩)
      exact hname ▸ hnames.rules issue hissue
    · intro b hb
      refine ⟨hnames.files b hb, fun issue hissue =>
        ⟨hnames.severities b hb issue hissue, hnames.rules issue ?_⟩⟩
      obtain ⟨name, -, rfl⟩ := List.mem_map.1 hb
      exact mem_of_mem_shown hissue

/-- **Where the names have no line breaks, messages alone add lines**: those behind their first. -/
theorem addedLines_of_namesUnbroken {context : RepoContext} {issues : List Issue}
    (h : NamesUnbroken context issues) :
    addedLines context issues =
      (ruleBlocks issues).flatMap fun b => b.shown.flatMap fun issue =>
        laterLines issue.message := by
  have hfiles : (fileBlocks issues).flatMap (Tally.addedLines fileBullet) = [] := by
    rw [List.flatMap_eq_nil_iff]
    intro b hb
    rw [Tally.addedLines_eq_nil_iff]
    refine ⟨h.files b hb, fun issue hissue => ?_⟩
    rw [newline_mem_fileBullet_iff, not_or]
    obtain ⟨name, -, rfl⟩ := List.mem_map.1 hb
    exact ⟨h.severities _ hb issue hissue, h.rules issue (mem_of_mem_shown hissue)⟩
  rw [addedLines, hfiles, List.append_nil]
  refine List.flatMap_congr fun b hb => ?_
  have hname : '\n' ∉ b.name.toList := by
    obtain ⟨issue, hissue, hname⟩ := List.mem_map.1 (mem_name_ruleBlocks.1 ⟨b, hb, rfl⟩)
    exact hname ▸ h.rules issue hissue
  have hsummary : laterLines b.summary = [] :=
    Text.laterLines_eq_nil_iff.2 fun hmem => hname (Tally.newline_mem_summary_iff.1 hmem)
  rw [Tally.addedLines, hsummary, List.nil_append]
  refine List.flatMap_congr fun issue hissue => ?_
  have hmarks : '\n' ∉ "- ".toList ∧ '\n' ∉ " — ".toList := by decide
  have hlink : '\n' ∉ (context.locationLink issue.file (some issue.line)).toList := by
    rw [RepoContext.newline_mem_locationLink_iff, not_exists]
    exact fun text htext => h.places b hb issue hissue text htext.1 htext.2
  rw [ruleBullet_eq]
  refine Text.laterLines_append ?_ issue.message
  simp only [String.toList_append, List.mem_append, hmarks, hlink, or_false, not_false_eq_true]

/-! ### How a comment is read -/

/-- The lines of a comment about all its issues. -/
def linesOf (context : RepoContext) (issues : List Issue) : List String :=
  Text.splitAt '\n' (body context issues issues.length)

/-- **The blocks of a comment are read as they were written**: the lines that open and end them
alternate, and there are as many as there are rules and shown files. -/
def FencesKept (context : RepoContext) (issues : List Issue) : Prop :=
  (linesOf context issues).filter isFence =
    fences ((issues.map Issue.ruleId).toFinset.card + min 10 (issues.map Issue.file).toFinset.card)

/-- **The items of a comment are read as they were written**: as many lines start one as issues are
shown, and one more for every block that is cut. -/
def ItemsKept (context : RepoContext) (issues : List Issue) : Prop :=
  ((linesOf context issues).filter isItem).length =
    ((ruleBlocks issues).map Tally.itemCount).sum + ((fileBlocks issues).map Tally.itemCount).sum

/-- **The lines of a comment are read as they were written**: each is one entry. -/
def LinesKept (context : RepoContext) (issues : List Issue) : Prop :=
  linesOf context issues = issueLines context issues (some (issues.length : Int))

section Kept

variable (context : RepoContext) {issues : List Issue} (hissues : issues ≠ [])

include hissues

/-- The lines of a comment are those of its entries. -/
theorem linesOf_eq : linesOf context issues =
    (issueLines context issues (some (issues.length : Int))).flatMap (Text.splitAt '\n') := by
  have hlength : ¬ ((issues.length : Int) == 0) = true := by simpa using hissues
  rw [linesOf, body, if_neg hlength]
  exact Text.splitAt_intercalate_eq_flatMap rfl (List.cons_ne_nil _ _)

/-- Blocks are read as they were written exactly when no added line opens or ends one. -/
theorem fencesKept_iff :
    FencesKept context issues ↔ ∀ line ∈ addedLines context issues, isFence line = false := by
  have hblocks : (ruleBlocks issues).length + (fileBlocks issues).length =
      (issues.map Issue.ruleId).toFinset.card + min 10 (issues.map Issue.file).toFinset.card := by
    rw [ruleBlocks, fileBlocks, List.length_map, List.length_map, List.length_take,
      length_rankedKeys, length_rankedKeys]
    rfl
  rw [FencesKept, linesOf_eq context hissues, ← hblocks,
    (reads_issueLines context hissues).fences_iff]

/-- Items are read as they were written exactly when no added line starts one. -/
theorem itemsKept_iff :
    ItemsKept context issues ↔ ∀ line ∈ addedLines context issues, isItem line = false := by
  rw [ItemsKept, linesOf_eq context hissues, (reads_issueLines context hissues).items_iff]

/-- Lines are read as they were written exactly when none is added. -/
theorem linesKept_iff : LinesKept context issues ↔ addedLines context issues = [] := by
  rw [LinesKept, linesOf_eq context hissues, lines_eq_iff,
    (reads_issueLines context hissues).added_eq]

end Kept

/-- **When a comment is read as it was written.** For all issues and every repository:

* its blocks alternate, one for every rule and every shown file, exactly when no added line opens or
  ends a block;
* its items are one for every shown issue, and one for every block that is cut, exactly when no
  added line starts one;
* no line is added or missing exactly when neither the names nor the messages that are shown have
  line breaks, and then blocks and items are read as they were written;
* where the names have none, the lines that are added are those of the messages behind their
  first. -/
theorem structure_kept_iff (context : RepoContext) {issues : List Issue} (hissues : issues ≠ []) :
    (FencesKept context issues ↔ ∀ line ∈ addedLines context issues, isFence line = false) ∧
    (ItemsKept context issues ↔ ∀ line ∈ addedLines context issues, isItem line = false) ∧
    (LinesKept context issues ↔ NamesUnbroken context issues ∧ MessagesUnbroken issues) ∧
    (LinesKept context issues → FencesKept context issues ∧ ItemsKept context issues) ∧
    (NamesUnbroken context issues → addedLines context issues =
      (ruleBlocks issues).flatMap fun b => b.shown.flatMap fun issue =>
        laterLines issue.message) := by
  have hadded := linesKept_iff context hissues
  refine ⟨fencesKept_iff context hissues, itemsKept_iff context hissues,
    hadded.trans addedLines_eq_nil_iff, fun hkept => ?_, addedLines_of_namesUnbroken⟩
  rw [fencesKept_iff context hissues, itemsKept_iff context hissues, hadded.1 hkept]
  exact ⟨nofun, nofun⟩

/-- One issue with a message. -/
def issueSaying (message : String) : List Issue := [⟨"a", "error", message, "x.rs", 1, 1, none⟩]

/-- A message of two lines adds its second line, which is no fence and no item. -/
theorem twoLineMessage_structure :
    let issues := issueSaying "one\ntwo"
    FencesKept {} issues ∧ ItemsKept {} issues ∧ ¬ LinesKept {} issues ∧
      addedLines {} issues = ["two"] := by
  intro issues
  obtain ⟨hfences, hitems, hlines, -, hadded⟩ := structure_kept_iff {} (by decide : issues ≠ [])
  have hnames : NamesUnbroken {} issues := {
    rules := by decide
    places := by decide +kernel
    files := by decide +kernel
    severities := by decide +kernel }
  have htwo : addedLines {} issues = ["two"] := (hadded hnames).trans (by decide +kernel)
  rw [hfences, hitems, hlines, ← addedLines_eq_nil_iff, htwo]
  decide

/-- **A message can break the structure of a comment.** A bullet and the end of a block in a message
are read as such. -/
theorem brokenMessage_structure :
    let issues := issueSaying "one\n- two\n</details>"
    ¬ FencesKept {} issues ∧ ¬ ItemsKept {} issues ∧ ¬ LinesKept {} issues ∧
      (linesOf {} issues).filter isFence =
        ["<details>", "</details>", "</details>", "<details>", "</details>"] ∧
      (linesOf {} issues).filter isItem =
        ["- `x.rs:1` — one", "- two", "- Line 1: ❌ error `a`"] := by
  intro issues
  have hissues : issues ≠ [] := by decide
  have hadded : addedLines {} issues = ["- two", "</details>"] := by decide +kernel
  rw [fencesKept_iff _ hissues, itemsKept_iff _ hissues, linesKept_iff _ hissues,
    linesOf_eq _ hissues, hadded]
  decide +kernel

end Comment

end LintReport
