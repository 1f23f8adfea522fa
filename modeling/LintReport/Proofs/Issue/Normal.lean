import LintReport.Issue.Output
import LintReport.Proofs.Json.Layout
import LintReport.Proofs.Text.Blank

/-!
# Normal Issues

Every issue that comes out of a match is in a normal form: its texts are not blank, its id and its
code are trimmed, its severity is one of the three words, and its place is at least one. Normal
issues are the fixed points of writing an issue as an object and normalizing that object, and no
field takes its default on the way.

## Main results

* `Issue.normalize_isNormal`: **every match makes a normal issue**, whatever its members are.
* `Issue.normalize_members`: **a normal issue is the issue of its own object**, without defaults.
* `Issue.ofMatch_toJson`: an issue of a match is the issue of its own object.
-/

namespace LintReport

namespace Issue

/-- **The normal form of an issue.** -/
structure IsNormal (issue : Issue) : Prop where
  ruleId_notBlank : Text.isBlankText issue.ruleId = false
  ruleId_trimmed : Text.trim issue.ruleId = issue.ruleId
  severity_word : ∃ s : Severity, issue.severity = s.text
  message_notBlank : Text.isBlankText issue.message = false
  file_notBlank : Text.isBlankText issue.file = false
  one_le_line : 1 ≤ issue.line
  one_le_column : 1 ≤ issue.column
  code_trimmed : ∀ c ∈ issue.code, Text.trim c = c

/-! ### What the readers of a match accept -/

/-- A usable text is a string that is not blank. -/
theorem usableText?_eq_some {v : Option Json} {s : String} :
    usableText? v = some s ↔ v = some (.str s) ∧ Text.isBlankText s = false := by
  constructor
  · intro h
    unfold usableText? at h
    split at h
    · next t =>
      split at h
      · cases h
      · next hblank =>
        obtain rfl := Option.some.inj h
        exact ⟨rfl, Bool.eq_false_of_not_eq_true hblank⟩
    · cases h
  · rintro ⟨rfl, hblank⟩
    rw [usableText?, hblank, if_neg Bool.false_ne_true]

/-- A usable position is an integer that is at least one. -/
theorem usablePosition?_eq_some {v : Option Json} {i : Int} :
    usablePosition? v = some i ↔ v = some (.int i) ∧ 1 ≤ i := by
  constructor
  · intro h
    unfold usablePosition? at h
    split at h
    · split at h
      · next hle =>
        obtain rfl := Option.some.inj h
        exact ⟨rfl, hle⟩
      · cases h
    · cases h
  · rintro ⟨rfl, hle⟩
    rw [usablePosition?, if_pos hle]

/-- A text with a default that is not blank is not blank. -/
theorem getD_usableText?_notBlank (v : Option Json) {default : String}
    (h : Text.isBlankText default = false) :
    Text.isBlankText ((usableText? v).getD default) = false := by
  cases hv : usableText? v with
  | none => exact h
  | some s => exact (usableText?_eq_some.1 hv).2

/-- The place where a match starts is at least one. -/
theorem one_le_of_startPosition? {raw : List (String × Json)} {key : String} {i : Int}
    (h : startPosition? raw key = some i) : 1 ≤ i := by
  rw [startPosition?, Option.orElse_eq_orElse, Option.orElse_eq_or, Option.or_eq_some_iff] at h
  rcases h with h | ⟨-, h⟩
  · simp only [bind, Option.bind_eq_some_iff] at h
    obtain ⟨range, -, start, -, h⟩ := h
    exact (usablePosition?_eq_some.1 h).2
  · exact (usablePosition?_eq_some.1 h).2

/-- A place with a default of one is at least one. -/
theorem one_le_getD_startPosition? (raw : List (String × Json)) (key : String) :
    1 ≤ (startPosition? raw key).getD 1 := by
  cases h : startPosition? raw key with
  | none => exact Int.le_refl 1
  | some i => exact one_le_of_startPosition? h

/-- The first line of a note, or what stands in for it, is not blank. -/
theorem noteLine?_getD_notBlank (raw : List (String × Json)) :
    Text.isBlankText ((noteLine? raw).getD "Lint issue") = false := by
  cases h : noteLine? raw with
  | none => decide
  | some s =>
    rw [noteLine?, Option.bind_eq_bind, Option.bind_eq_some_iff] at h
    obtain ⟨note, -, hline⟩ := h
    exact (usableText?_eq_some.1 hline).2

/-! ### The normal form -/

/-- **Every match makes a normal issue**, whatever its members are. -/
theorem normalize_isNormal (raw : List (String × Json)) : (normalize raw).issue.IsNormal where
  ruleId_notBlank := by
    change Text.isBlankText (Text.trim _) = false
    rw [Text.isBlankText_trim]
    exact getD_usableText?_notBlank _ (by decide)
  ruleId_trimmed := Text.trim_trim _
  severity_word := ⟨_, rfl⟩
  message_notBlank := getD_usableText?_notBlank _ (noteLine?_getD_notBlank raw)
  file_notBlank := getD_usableText?_notBlank _ (by decide)
  one_le_line := one_le_getD_startPosition? raw "line"
  one_le_column := one_le_getD_startPosition? raw "column"
  code_trimmed := by
    intro c hc
    change c ∈ Option.map Text.trim _ at hc
    rw [Option.mem_def, Option.map_eq_some_iff] at hc
    obtain ⟨s, -, rfl⟩ := hc
    exact Text.trim_trim s

/-! ### Writing a normal issue and reading it -/

/-- The members of the object of an issue. -/
def members (issue : Issue) : List (String × Json) :=
  [("ruleId", .str issue.ruleId), ("severity", .str issue.severity),
    ("message", .str issue.message), ("file", .str issue.file), ("line", .int issue.line),
    ("column", .int issue.column)] ++ (issue.code.map fun c => ("code", .str c)).toList

theorem toJson_eq (issue : Issue) : issue.toJson = .obj issue.members := rfl

/-- The object of an issue has no range, so its line and its column are those beside it. -/
theorem startPosition?_members (issue : Issue) (key : String) :
    startPosition? issue.members key = usablePosition? (Json.lookup? key issue.members) := by
  have hrange : Json.lookup? "range" issue.members = none := by
    cases hc : issue.code <;> simp [members, Json.lookup?, hc]
  simp [startPosition?, hrange]

/-- The code of an issue is read from its own key. -/
theorem sourceCode?_members {issue : Issue} (h : issue.IsNormal) :
    sourceCode? issue.members = issue.code := by
  have hcode := h.code_trimmed
  cases hc : issue.code with
  | none => simp [sourceCode?, members, Json.lookup?, hc]
  | some c => simp [sourceCode?, members, Json.lookup?, hc, Json.text?, hcode c hc]

/-- Members that give the texts, the place and the code of a normal issue give that issue, and no
field takes its default. -/
theorem normalize_of_reads {issue : Issue} (h : issue.IsNormal) {raw : List (String × Json)}
    (hruleId : Json.lookup? "ruleId" raw = some (.str issue.ruleId))
    (hseverity : Json.lookup? "severity" raw = some (.str issue.severity))
    (hmessage : Json.lookup? "message" raw = some (.str issue.message))
    (hfile : Json.lookup? "file" raw = some (.str issue.file))
    (hline : startPosition? raw "line" = some issue.line)
    (hcolumn : startPosition? raw "column" = some issue.column)
    (hcode : sourceCode? raw = issue.code) : normalize raw = ⟨issue, []⟩ := by
  obtain ⟨severity, hword⟩ := h.severity_word
  have hclass : (Json.lookup? "severity" raw).bind Severity.classify = some severity := by
    rw [hseverity, hword, Option.bind_some, Severity.classify, Severity.ofText_text]
  simp only [normalize, usableText?_eq_some.2 ⟨hruleId, h.ruleId_notBlank⟩, hclass,
    usableText?_eq_some.2 ⟨hmessage, h.message_notBlank⟩,
    usableText?_eq_some.2 ⟨hfile, h.file_notBlank⟩, hline, hcolumn, hcode, Option.getD_some,
    h.ruleId_trimmed, ← hword]
  rfl

/-- **A normal issue is the issue of its own object**, and no field takes its default. -/
theorem normalize_members {issue : Issue} (h : issue.IsNormal) :
    normalize issue.members = ⟨issue, []⟩ := by
  have hline : startPosition? issue.members "line" = some issue.line := by
    rw [startPosition?_members]
    exact usablePosition?_eq_some.2 ⟨rfl, h.one_le_line⟩
  have hcolumn : startPosition? issue.members "column" = some issue.column := by
    rw [startPosition?_members]
    exact usablePosition?_eq_some.2 ⟨rfl, h.one_le_column⟩
  exact normalize_of_reads h rfl rfl rfl rfl hline hcolumn (sourceCode?_members h)

/-- The issue of an element is the issue of its own object. -/
theorem ofMatch_toJson {issue : Issue} (h : issue.IsNormal) : ofMatch issue.toJson = issue := by
  rw [toJson_eq, ofMatch, normalize_members h]

/-- An issue is a match to the reader of an output. -/
theorem looksLikeMatch_toJson (issue : Issue) : looksLikeMatch issue.toJson = true := rfl

/-- The object of an issue reads back. -/
theorem readable_toJson (issue : Issue) : Json.Readable issue.toJson := by
  cases hc : issue.code <;> simp [toJson, Json.Readable, Json.ReadableMembers, hc]

end Issue

end LintReport
