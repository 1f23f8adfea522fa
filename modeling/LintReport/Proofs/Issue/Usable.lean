import LintReport.Proofs.Issue.Normal
import LintReport.Text.Line

/-!
# What a Match Gives for a Field

What can be used for a field of an issue is said about the members of a match alone: which keys are
looked at, in which order, and which values count. A field takes its default exactly when nothing
can be used for it, so the list of defaults is honest. An issue that is written over the members it
was made from is found again, although some of those members are looked at before its own.

## Main definitions

* `Issue.HoldsText`, `Issue.HoldsPosition`: a text and a place that can be used.
* `Issue.Gives`: the value that the members of a match give for a field.
* `Json.overlay`: members written over others.

## Main results

* `Issue.mem_fallbacks_iff`: **a field takes its default exactly when nothing can be used for it**.
* `Issue.lookup?_members_of_gives`: what can be used is used.
* `Text.isBlankText_firstLine_trim`: the first line of a trimmed text is not blank.
* `Issue.normalize_overlay`: **an issue that is written over its match is the issue of the result**.
* `Issue.normalize_honest`: all of this about one match.
-/

namespace LintReport

/-- The fields in the order in which their defaults are listed. -/
def Field.all : List Field := [.ruleId, .severity, .message, .file, .line, .column]

theorem Field.mem_all (field : Field) : field ∈ Field.all := by
  cases field <;> decide

/-! ### First lines -/

namespace Text

/-- What ends a line is blank. -/
theorem isBlank_of_isLineBoundary {c : Char} (h : isLineBoundary c = true) : isBlank c = true := by
  rw [isLineBoundary, List.contains_iff_mem] at h
  have hcodes : ∀ n ∈ [0x0A, 0x0B, 0x0C, 0x0D, 0x1C, 0x1D, 0x1E, 0x85, 0x2028, 0x2029],
      n ∈ blankCodes := by
    decide
  rw [isBlank, List.contains_iff_mem]
  exact hcodes c.toNat h

/-- **The first line of a trimmed text is not blank**: it starts with the text, and a line does not
end where no blank is. -/
theorem isBlankText_firstLine_trim {s : String} (h : isBlankText s = false) :
    isBlankText (firstLine (trim s)) = false := by
  cases htrim : trimChars s.toList with
  | nil =>
    rw [isBlankText, trimChars_eq_nil_iff.1 htrim] at h
    cases h
  | cons c rest =>
    have hblank := isBlank_of_trimChars_eq_cons htrim
    have hboundary : isLineBoundary c = false := by
      rw [Bool.eq_false_iff]
      intro hends
      rw [isBlank_of_isLineBoundary hends] at hblank
      cases hblank
    simp [isBlankText, firstLine, trim, htrim, hboundary, hblank]

end Text

/-! ### Members written over others -/

/-- Members after others have been written over them, one after another. -/
def Json.overlay (members raw : List (String × Json)) : List (String × Json) :=
  members.foldl (fun done m => Json.insert m.1 m.2 done) raw

/-- A key that no member has is not found. -/
theorem Json.lookup?_of_notMem {members : List (String × Json)} {key : String}
    (h : key ∉ members.map (·.1)) : lookup? key members = none := by
  induction members with
  | nil => rfl
  | cons m rest ih =>
    rw [List.map_cons, List.mem_cons, not_or] at h
    rw [lookup?, if_neg (by simpa using Ne.symm h.1), ih h.2]

/-- What is written over is found first, if no key is written twice. -/
theorem Json.lookup?_overlay {members : List (String × Json)} (hnodup : (members.map (·.1)).Nodup)
    (raw : List (String × Json)) (key : String) :
    lookup? key (overlay members raw) = (lookup? key members).or (lookup? key raw) := by
  induction members generalizing raw with
  | nil => rfl
  | cons m rest ih =>
    obtain ⟨k, v⟩ := m
    rw [List.map_cons, List.nodup_cons] at hnodup
    rw [overlay, List.foldl_cons]
    refine (ih hnodup.2 (insert k v raw)).trans ?_
    by_cases hk : k = key
    · rw [← hk, lookup?_of_notMem hnodup.1, lookup?_insert_self]
      simp [lookup?]
    · rw [lookup?_insert_of_ne v raw hk]
      simp [lookup?, hk]

namespace Issue

/-! ### Values that can be used -/

section Match

variable (raw : List (String × Json))

/-- A text that can be used: a string with more than blanks. -/
def HoldsText (key s : String) : Prop :=
  Json.lookup? key raw = some (.str s) ∧ Text.isBlankText s = false

/-- A number that can be used where the range of a match starts: an integer that is at least one. -/
def StartsAt (key : String) (i : Int) : Prop :=
  ∃ range start, Json.lookup? "range" raw = some (.obj range) ∧
    Json.lookup? "start" range = some (.obj start) ∧ Json.lookup? key start = some (.int i) ∧ 1 ≤ i

/-- A line or a column that can be used: where the range starts, or else beside the range. -/
def HoldsPosition (key : String) (i : Int) : Prop :=
  StartsAt raw key i ∨
    (¬∃ j, StartsAt raw key j) ∧ Json.lookup? key raw = some (.int i) ∧ 1 ≤ i

/-- **The value that the members of a match give for a field.** -/
inductive Gives : Field → Json → Prop
  | ruleId {s : String} : HoldsText raw "ruleId" s → Gives .ruleId (.str (Text.trim s))
  | severity {s : String} : Json.lookup? "severity" raw = some (.str s) →
    Gives .severity (.str (Severity.ofText s).text)
  | message {s : String} : HoldsText raw "message" s → Gives .message (.str s)
  | file {s : String} : HoldsText raw "file" s → Gives .file (.str s)
  | line {i : Int} : HoldsPosition raw "line" i → Gives .line (.int i)
  | column {i : Int} : HoldsPosition raw "column" i → Gives .column (.int i)

end Match

section Fields

variable {raw : List (String × Json)} {key : String}

theorem usableText?_lookup?_eq_some {s : String} :
    usableText? (Json.lookup? key raw) = some s ↔ HoldsText raw key s :=
  usableText?_eq_some

theorem classify_eq_some {severity : Severity} {v : Option Json} :
    v.bind Severity.classify = some severity ↔
      ∃ s, v = some (.str s) ∧ severity = Severity.ofText s := by
  cases v with
  | none => simp
  | some v => cases v <;> simp [Severity.classify, eq_comm]

/-- The place is read as it is held. -/
theorem startPosition?_eq_some {i : Int} :
    startPosition? raw key = some i ↔ HoldsPosition raw key i := by
  have hrange (j : Int) : (do
      let range ← Json.lookup? "range" raw
      let start ← range.field? "start"
      usablePosition? (start.field? key)) = some j ↔ StartsAt raw key j := by
    simp only [Option.bind_eq_bind, Option.bind_eq_some_iff, usablePosition?_eq_some, StartsAt]
    constructor
    · rintro ⟨range, hlookup, start, hfield, hposition, hle⟩
      cases range with
      | obj range =>
        cases start with
        | obj start => exact ⟨range, start, hlookup, hfield, hposition, hle⟩
        | _ => cases hposition
      | _ => cases hfield
    · rintro ⟨range, start, hlookup, hstart, hposition, hle⟩
      exact ⟨_, hlookup, _, hstart, hposition, hle⟩
  rw [startPosition?, Option.orElse_eq_orElse, Option.orElse_eq_or, Option.or_eq_some_iff, hrange,
    HoldsPosition, usablePosition?_eq_some, Option.eq_none_iff_forall_not_mem]
  simp only [Option.mem_def, hrange, not_exists]

/-- The value that is read for a field. -/
def reading? (raw : List (String × Json)) : Field → Option Json
  | .ruleId => (usableText? (Json.lookup? "ruleId" raw)).map fun s => .str (Text.trim s)
  | .severity => ((Json.lookup? "severity" raw).bind Severity.classify).map fun s => .str s.text
  | .message => (usableText? (Json.lookup? "message" raw)).map .str
  | .file => (usableText? (Json.lookup? "file" raw)).map .str
  | .line => (startPosition? raw "line").map .int
  | .column => (startPosition? raw "column").map .int

/-- What is read for a field is what the match gives for it. -/
theorem reading?_eq_some {field : Field} {v : Json} :
    reading? raw field = some v ↔ Gives raw field v := by
  cases field <;>
    simp only [reading?, Option.map_eq_some_iff, usableText?_lookup?_eq_some, classify_eq_some,
      startPosition?_eq_some]
  case severity =>
    constructor
    · rintro ⟨_, ⟨s, hs, rfl⟩, rfl⟩
      exact .severity hs
    · rintro ⟨⟩
      exact ⟨_, ⟨_, ‹_›, rfl⟩, rfl⟩
  all_goals
    constructor
    · rintro ⟨_, h, rfl⟩
      constructor
      exact h
    · rintro ⟨⟩
      exact ⟨_, ‹_›, rfl⟩

/-- The defaults are listed field by field. -/
theorem fallbacks_eq (raw : List (String × Json)) :
    (normalize raw).fallbacks = Field.all.filter fun field => (reading? raw field).isNone := by
  simp [normalize, Field.all, reading?, List.filter_cons, apply_ite (List.map _)]

/-- **A field takes its default exactly when nothing can be used for it.** -/
theorem mem_fallbacks_iff {field : Field} :
    field ∈ (normalize raw).fallbacks ↔ ¬∃ v, Gives raw field v := by
  simp only [fallbacks_eq, List.mem_filter, Field.mem_all, true_and, Option.isNone_iff_eq_none,
    Option.eq_none_iff_forall_not_mem, Option.mem_def, reading?_eq_some, not_exists]

/-- **What can be used is used.** -/
theorem lookup?_members_of_gives {field : Field} {v : Json} (h : Gives raw field v) :
    Json.lookup? field.key (normalize raw).issue.members = some v := by
  rw [← reading?_eq_some] at h
  cases field <;>
    obtain ⟨x, hx, rfl⟩ := Option.map_eq_some_iff.1 h <;>
    simp [Field.key, members, Json.lookup?, normalize, hx]

/-- A message that is made up is the first line of the note, if there is one. -/
theorem message_of_mem_fallbacks (h : Field.message ∈ (normalize raw).fallbacks) :
    (∀ note, HoldsText raw "note" note →
      (normalize raw).issue.message = Text.firstLine (Text.trim note)) ∧
    ((¬∃ note, HoldsText raw "note" note) → (normalize raw).issue.message = "Lint issue") := by
  have hmessage : usableText? (Json.lookup? "message" raw) = none := by
    simpa [fallbacks_eq, Field.mem_all, reading?] using h
  have hissue : (normalize raw).issue.message = (noteLine? raw).getD "Lint issue" := by
    simp only [normalize, hmessage, Option.getD_none]
  rw [hissue, noteLine?]
  constructor
  · intro note hnote
    have hline := Text.isBlankText_firstLine_trim hnote.2
    rw [usableText?_lookup?_eq_some.2 hnote, Option.bind_eq_bind, Option.bind_some,
      usableText?_eq_some.2 ⟨rfl, hline⟩, Option.getD_some]
  · intro hnone
    have hnote : usableText? (Json.lookup? "note" raw) = none := by
      rw [Option.eq_none_iff_forall_not_mem]
      exact fun note hnote => hnone ⟨note, usableText?_lookup?_eq_some.1 hnote⟩
    rw [hnote]
    rfl

end Fields

/-! ### Issues written over their matches -/

theorem nodup_members (issue : Issue) : (issue.members.map (·.1)).Nodup := by
  cases hcode : issue.code <;> simp [members, hcode]

/-- The code of an issue that is written over its match is still read from the same place. -/
theorem sourceCode?_overlay (raw : List (String × Json)) :
    sourceCode? (Json.overlay (normalize raw).issue.members raw) = sourceCode? raw := by
  have hcode : (normalize raw).issue.code = sourceCode? raw := rfl
  have hlines : Json.lookup? "lines" (normalize raw).issue.members = none := by
    cases hc : (normalize raw).issue.code <;> simp [members, Json.lookup?, hc]
  have hown : Json.lookup? "code" (normalize raw).issue.members =
      (sourceCode? raw).map Json.str := by
    cases hc : (normalize raw).issue.code <;> simp [members, Json.lookup?, hc, ← hcode]
  simp only [sourceCode?, Json.lookup?_overlay (nodup_members _), hlines, hown, Option.none_or]
  -- the lines win over the code, before and after
  cases (Json.lookup? "lines" raw).bind Json.text? with
  | some lines => rfl
  | none =>
    cases hraw : (Json.lookup? "code" raw).bind Json.text? with
    | none => simpa using hraw
    | some code => simp [Json.text?]

/-- The place of an issue that is written over its match is read where it was, or else from the
issue. -/
theorem startPosition?_overlay (raw : List (String × Json)) {issue : Issue} {key : String} {i : Int}
    (hown : Json.lookup? key issue.members = some (.int i)) (hle : 1 ≤ i)
    (hsame : ∀ j, StartsAt raw key j → j = i) :
    startPosition? (Json.overlay issue.members raw) key = some i := by
  have hrange : Json.lookup? "range" (Json.overlay issue.members raw) =
      Json.lookup? "range" raw := by
    rw [Json.lookup?_overlay (nodup_members _)]
    cases hc : issue.code <;> simp [members, Json.lookup?, hc]
  have hstarts (j : Int) : StartsAt (Json.overlay issue.members raw) key j ↔
      StartsAt raw key j := by
    rw [StartsAt, StartsAt, hrange]
  rw [startPosition?_eq_some, HoldsPosition]
  by_cases hstart : ∃ j, StartsAt raw key j
  · obtain ⟨j, hj⟩ := hstart
    rw [hstarts, ← hsame j hj]
    exact .inl hj
  · refine .inr ⟨by simpa only [hstarts] using hstart, ?_, hle⟩
    rw [Json.lookup?_overlay (nodup_members _), hown, Option.some_or]

/-- **An issue that is written over its match is the issue of the result**, without defaults. -/
theorem normalize_overlay (raw : List (String × Json)) :
    normalize (Json.overlay (normalize raw).issue.members raw) = ⟨(normalize raw).issue, []⟩ := by
  have hnormal := normalize_isNormal raw
  have hown {key : String} {v : Json}
      (h : Json.lookup? key (normalize raw).issue.members = some v) :
      Json.lookup? key (Json.overlay (normalize raw).issue.members raw) = some v := by
    rw [Json.lookup?_overlay (nodup_members _), h, Option.some_or]
  have hline (j : Int) (hj : StartsAt raw "line" j) : j = (normalize raw).issue.line := by
    have hused := lookup?_members_of_gives (.line (.inl hj))
    exact Json.int.inj (Option.some.inj hused).symm
  have hcolumn (j : Int) (hj : StartsAt raw "column" j) : j = (normalize raw).issue.column := by
    have hused := lookup?_members_of_gives (.column (.inl hj))
    exact Json.int.inj (Option.some.inj hused).symm
  exact normalize_of_reads hnormal (hown rfl) (hown rfl) (hown rfl) (hown rfl)
    (startPosition?_overlay raw rfl hnormal.one_le_line hline)
    (startPosition?_overlay raw rfl hnormal.one_le_column hcolumn) (sourceCode?_overlay raw)

/-- **Every match makes a well-formed issue and an honest list of defaults.** The issue is normal;
a field is missing from the list exactly when the match holds something that can be used for it, and
that is then what the issue has; a message that is made up is the first line of the note, if there
is one; and the issue is found again, without defaults, in its own object and when that is written
over the match. -/
theorem normalize_honest (raw : List (String × Json)) :
    (normalize raw).issue.IsNormal ∧
    (normalize raw).fallbacks.Sublist Field.all ∧ (normalize raw).fallbacks.Nodup ∧
    (∀ field, field ∉ (normalize raw).fallbacks ↔ ∃ v, Gives raw field v) ∧
    (∀ field v, Gives raw field v →
      Json.lookup? field.key (normalize raw).issue.members = some v) ∧
    (Field.message ∈ (normalize raw).fallbacks →
      (∀ note, HoldsText raw "note" note →
        (normalize raw).issue.message = Text.firstLine (Text.trim note)) ∧
      ((¬∃ note, HoldsText raw "note" note) → (normalize raw).issue.message = "Lint issue")) ∧
    normalize (normalize raw).issue.members = ⟨(normalize raw).issue, []⟩ ∧
    normalize (Json.overlay (normalize raw).issue.members raw) = ⟨(normalize raw).issue, []⟩ := by
  have hsublist : (normalize raw).fallbacks.Sublist Field.all := by
    rw [fallbacks_eq]
    exact List.filter_sublist
  refine ⟨normalize_isNormal raw, hsublist, hsublist.nodup (by decide), fun field => ?_,
    fun _ _ => lookup?_members_of_gives, message_of_mem_fallbacks,
    normalize_members (normalize_isNormal raw), normalize_overlay raw⟩
  rw [mem_fallbacks_iff, not_not]

/-- A place in the range wins over the one beside it also after the issue has been written over its
match, and a range that cannot be used leaves the place to the issue. -/
example : (normalize (Json.overlay (normalize
      [("range", .obj [("start", .obj [("line", .int 7), ("column", .int 0)])]), ("line", .int 3),
        ("note", .str "\n first\nsecond")]).issue.members
      [("range", .obj [("start", .obj [("line", .int 7), ("column", .int 0)])]), ("line", .int 3),
        ("note", .str "\n first\nsecond")])).issue =
    ⟨"unknown", "warning", "first", "unknown", 7, 1, none⟩ := by
  decide

end Issue

end LintReport
