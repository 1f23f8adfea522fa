import LintReport.Comment.Results
import LintReport.Proofs.FileTree.Append
import LintReport.Proofs.Issue.Normal
import LintReport.Proofs.Json.RoundTrip
import LintReport.Proofs.Report.Delivery
import LintReport.Proofs.Text.Utf8

/-!
# Reading a Report Back

The output of a scan without a workflow is one JSON array. It is an output of the engine in its own
right: every issue in it is normal, so it is its own match, and its place came out of a text that
was read, so there is room for it once more. The text therefore reads back as it was written, also
from a file.

## Main definitions

* `Issue.IsRead`: what issues are that were read from an output.

## Main results

* `Report.isRead_of_select`: the issues that remain in a report were read from its output.
* `Issue.readOutput_pretty`: **issues that were read read back** from the text that is printed for
  them.
* `Results.load_eq_of_read`: so they do from a file that holds that text.
* `Report.printed_reads_back`: **what a scan prints is read back without any loss**.
-/

namespace LintReport

/-! ### The issues of a report -/

namespace Issue

/-- Selecting and excluding drop issues and change none. -/
theorem mem_of_mem_exclude {allowed : Option (List String)} {excluded : List String}
    {issues : List Issue} {issue : Issue}
    (h : issue ∈ (exclude excluded (selectAllowed allowed issues).issues).issues) :
    issue ∈ issues := by
  have hleft : issue ∈ (selectAllowed allowed issues).issues := List.mem_of_mem_filter h
  cases allowed with
  | none => exact hleft
  | some ids => exact List.mem_of_mem_filter hleft

/-- **What an issue is that was read from an output**: it is normal, and there is room for the
integers of its place. -/
structure IsRead (issue : Issue) : Prop extends issue.IsNormal where
  line_short : Numeral.isShort issue.line = true
  column_short : Numeral.isShort issue.column = true

/-- A place that was found in members that fit is short. -/
theorem isShort_of_startPosition? {room : Nat} {raw : List (String × Json)} {key : String} {i : Int}
    (hraw : Json.FitsMembers room raw) (h : startPosition? raw key = some i) :
    Numeral.isShort i = true := by
  rw [startPosition?, Option.orElse_eq_orElse, Option.orElse_eq_or, Option.or_eq_some_iff] at h
  rcases h with h | ⟨-, h⟩
  · simp only [bind, Option.bind_eq_some_iff] at h
    obtain ⟨range, hrange, start, hstart, h⟩ := h
    have hstart := (hraw.of_lookup? hrange).of_field? hstart
    exact hstart.of_field? (usablePosition?_eq_some.1 h).1
  · exact hraw.of_lookup? (usablePosition?_eq_some.1 h).1

/-- The place of a match that fits is short, also where it takes its default. -/
theorem isShort_getD_startPosition? {room : Nat} {raw : List (String × Json)}
    (hraw : Json.FitsMembers room raw) (key : String) :
    Numeral.isShort ((startPosition? raw key).getD 1) = true := by
  cases h : startPosition? raw key with
  | none => decide
  | some i => exact isShort_of_startPosition? hraw h

/-- The issue of an element that fits is one that was read. -/
theorem ofMatch_isRead {room : Nat} {v : Json} (hv : Json.Fits room v) : (ofMatch v).IsRead := by
  have hread {room : Nat} {raw : List (String × Json)} (hraw : Json.FitsMembers room raw) :
      (normalize raw).issue.IsRead :=
    ⟨normalize_isNormal raw, isShort_getD_startPosition? hraw "line",
      isShort_getD_startPosition? hraw "column"⟩
  have hnone : Json.FitsMembers room [] := trivial
  cases v with
  | obj members => exact hread hv.2
  | _ => exact hread hnone

end Issue

namespace Report

/-- **The issues that remain in a report** were read from its output. -/
theorem isRead_of_select {text : String} {allowed excluded : List String} {s : Selection}
    (h : select text allowed excluded = .ok s) {issue : Issue} (hmem : issue ∈ s.issues) :
    issue.IsRead := by
  obtain ⟨items, hparse, hshape⟩ := exists_items_of_select h
  rw [select_eq hparse hshape, Except.ok.injEq] at h
  rw [← h] at hmem
  obtain ⟨v, hv, rfl⟩ := List.mem_map.1 (Issue.mem_of_mem_exclude hmem)
  have hitems : Json.FitsItems (Json.depthLimit - 1) items := (Json.parse_fits hparse).2
  exact Issue.ofMatch_isRead (Json.fitsItems_iff.1 hitems v hv)

end Report

/-! ### The text of issues -/

namespace Issue

/-- The array of the objects of issues. -/
def array (issues : List Issue) : Json := .arr (issues.map toJson)

/-- The array of issues reads back. -/
theorem readable_array (issues : List Issue) : Json.Readable (array issues) := by
  have hitems : Json.ReadableItems (issues.map toJson) := by
    induction issues with
    | nil => trivial
    | cons issue rest ih => exact ⟨readable_toJson issue, ih⟩
  exact hitems

/-- There is room for the object of an issue with a short place. -/
theorem fits_toJson {issue : Issue} (h : issue.IsRead) (room : Nat) :
    Json.Fits (room + 1) issue.toJson := by
  cases hc : issue.code <;>
    simp [toJson, Json.Fits, Json.FitsMembers, hc, h.line_short, h.column_short]

/-- There is room for the array of issues that were read. -/
theorem fits_array {issues : List Issue} (h : ∀ issue ∈ issues, issue.IsRead) :
    Json.Fits Json.depthLimit (array issues) := by
  refine ⟨by decide, Json.fitsItems_iff.2 fun v hv => ?_⟩
  obtain ⟨issue, hmem, rfl⟩ := List.mem_map.1 hv
  exact fits_toJson (h issue hmem) _

/-- Issues that were read are the issues of their own objects. -/
theorem map_ofMatch_toJson {issues : List Issue} (h : ∀ issue ∈ issues, issue.IsRead) :
    (issues.map toJson).map ofMatch = issues := by
  rw [List.map_map]
  exact (List.map_congr_left fun issue hmem => ofMatch_toJson (h issue hmem).toIsNormal).trans
    (List.map_id issues)

/-- The text that is printed for issues holds their array. -/
theorem parse_array {issues : List Issue} (h : ∀ issue ∈ issues, issue.IsRead) :
    Json.parse ((array issues).pretty ++ "\n") = .ok (array issues) :=
  Json.parse_pretty (readable_array issues) (fits_array h) (List.all_eq_true.1 (by decide))

/-- **Issues that were read read back** from the text that is printed for them, without any
warning. -/
theorem readOutput_pretty {issues : List Issue} (h : ∀ issue ∈ issues, issue.IsRead) :
    readOutput ((array issues).pretty ++ "\n") none = .ok ⟨issues, []⟩ := by
  have hshape : ((issues.map toJson).take 5).all looksLikeMatch = true := by
    rw [List.all_eq_true]
    intro v hv
    obtain ⟨issue, -, rfl⟩ := List.mem_map.1 (List.mem_of_mem_take hv)
    exact looksLikeMatch_toJson issue
  have hmatches : matches? (array issues) = some (issues.map toJson) := if_pos hshape
  rw [readOutput, ofOutput, parse_array h]
  dsimp only
  rw [hmatches]
  dsimp only
  rw [map_ofMatch_toJson h]
  rfl

/-- The text that is printed for issues has no carriage returns. -/
theorem return_notMem_pretty (issues : List Issue) :
    '\r' ∉ ((array issues).pretty ++ "\n").toList := by
  rw [String.toList_append, List.mem_append, not_or]
  refine ⟨fun h => ?_, by decide⟩
  have htext := Json.isLineText_pretty (readable_array issues) h
  exact absurd htext (by decide)

end Issue

/-! ### Results files -/

namespace Results

/-- A results file is read as the text that it holds. -/
theorem load_run_text {p : Path} {s : Session} {octets : List UInt8} {text : String}
    (hread : s.files.read p = .ok octets) (htext : s.files.readText p = .ok text) :
    (load p).run.run s = ((ofText text).mapError ResultsFault.output, s) := by
  rw [load, Run.run_files_bind, FileTree.hasFile_of_read hread]
  change (do
    let text ← Run.ofExcept ((s.files.readText p).mapError ResultsFault.text)
    Run.ofExcept ((ofText text).mapError ResultsFault.output) :
      Run ResultsFault (List Issue)).run.run s = _
  rw [htext]
  change (Run.ofExcept ((ofText text).mapError ResultsFault.output) :
    Run ResultsFault (List Issue)).run.run s = _
  cases ofText text <;> rfl

/-- The issues of a results file are those of the text that it holds. -/
theorem load_run {p : Path} {s : Session} {octets : List UInt8} {text : String}
    {issues : List Issue} (hread : s.files.read p = .ok octets)
    (htext : s.files.readText p = .ok text) (hissues : ofText text = .ok issues) :
    (load p).run.run s = (.ok issues, s) := by
  rw [load_run_text hread htext, hissues]
  rfl

/-- **Issues that were read read back from a file** that holds the text that is printed for them. -/
theorem load_eq_of_read {issues : List Issue} (h : ∀ issue ∈ issues, issue.IsRead) {p : Path}
    {s : Session}
    (hread : s.files.read p = .ok (Text.Utf8.encode ((Issue.array issues).pretty ++ "\n"))) :
    (load p).run.run s = (.ok issues, s) := by
  refine load_run hread (FileTree.readText_eq_ok hread (Issue.return_notMem_pretty issues)) ?_
  rw [ofText, Json.isBlankText_of_parse (Issue.parse_array h), if_neg Bool.false_ne_true,
    Issue.readOutput_pretty h]
  rfl

end Results

/-! ### The output of a scan -/

namespace Report

/-- **What a scan prints is read back without any loss.** For every output of the engine that holds
issues, whatever its exit code and whatever rules are allowed or excluded, a scan outside a workflow
adds one text to the output of the session. The reader of outputs turns that text into exactly the
issues that remained, in order and with no warning, and so does the reader of results files, for
every session with a file that holds the text. -/
theorem printed_reads_back (result : Engine.Result) (o : ScanOptions)
    (hplain : o.inWorkflow = false) (allowed : List String) (settings : Settings)
    (before : Session) {s : Selection}
    (hselect : select result.output allowed o.excluded = .ok s) :
    ∃ (printed : String) (after : Session),
      (Scan.report result o allowed settings).run.run before =
        (.ok (codeFor s.issues), after) ∧
      after.output = before.output ++ printed ∧
      printed = (Json.arr (s.issues.map Issue.toJson)).pretty ++ "\n" ∧
      Issue.readOutput printed none = .ok ⟨s.issues, []⟩ ∧
      ∀ (session : Session) (p : Path),
        session.files.read p = .ok (Text.Utf8.encode printed) →
          (Results.load p).run.run session = (.ok s.issues, session) := by
  have hread : ∀ issue ∈ s.issues, issue.IsRead := fun _ => isRead_of_select hselect
  have hlines : (ofSelection o s).output = [(Issue.array s.issues).pretty] := by
    rw [ofSelection, hplain]
    rfl
  have hstep : (ofSelection o s).stepOutput = none := by
    rw [ofSelection, hplain]
    rfl
  refine ⟨_, before.afterReport (ofSelection o s) o.inWorkflow, ?_, ?_, rfl,
    Issue.readOutput_pretty hread, fun session p => Results.load_eq_of_read hread⟩
  · rw [Scan.report_run_ok (ofResult_eq hselect), Scan.deliver_run_ok hstep]
    rfl
  · rw [Session.afterReport, hlines, textOfLines_singleton]
    rfl

/-- An output with two matches. -/
def sample : Engine.Result where
  code := 3
  output := "[\x7b\"ruleId\": \" a \", \"code\": \"\"\x7d, \x7b\"ruleId\": \"b\"\x7d]"

/-- A session with one file, which holds a text. -/
def sampleSession (text : String) : Session where
  files := ⟨[(⟨.working, ["results.json"]⟩, .file (Text.Utf8.encode text) false)]⟩

/-- Where one of two rules is excluded, the issue of the other is printed and reads back, also from
a file, with the empty code that it has. -/
theorem sample_reads_back :
    ∃ (printed : String) (after : Session),
      (Scan.report sample { json := true, excluded := ["b"] } ["a", "b"] {}).run.run {} =
        (.ok 0, after) ∧
      after.output = "" ++ printed ∧
      Issue.readOutput printed none =
        .ok ⟨[⟨"a", "warning", "Lint issue", "unknown", 1, 1, some ""⟩], []⟩ ∧
      (Results.load (.parse "results.json")).run.run (sampleSession printed) =
        (.ok [⟨"a", "warning", "Lint issue", "unknown", 1, 1, some ""⟩],
          sampleSession printed) := by
  have hselect : select sample.output ["a", "b"] ["b"] =
      .ok ⟨[⟨"a", "warning", "Lint issue", "unknown", 1, 1, some ""⟩], []⟩ := by
    decide +kernel
  obtain ⟨printed, after, hrun, hprinted, -, hread, hload⟩ :=
    printed_reads_back sample { json := true, excluded := ["b"] } rfl ["a", "b"] {} {} hselect
  exact ⟨printed, after, hrun, hprinted, hread, hload (sampleSession printed) _ rfl⟩

end Report

end LintReport
