import LintReport.Proofs.FileTree.Append
import LintReport.Proofs.Json.Halves
import LintReport.Proofs.Report.Commands
import LintReport.Proofs.Report.ReadBack

/-!
# One Verdict

A report says more than once how bad the issues are: in its exit code, in the severities of the
array, in the levels and the order of the commands, in the counts of the summary and in the results
of the workflow step. All of these are made from one list of issues, and different readers look at
different ones. An output without issues is passed on with the code of the engine. An output that is
beyond the reader is neither: it may hold issues or not, and there is no verdict.

## Main results

* `Issue.splitAt_workflowLines`: the lines of a report in a workflow, commands and counts first.
* `Issue.countP_isErrorLine`: as many commands are of the level error as there are errors.
* `Scan.deliver_run_append`: a delivery with results for the workflow step adds them to its file.
* `Report.verdicts_agree`: **a report has one verdict**, with and without a workflow, exactly where
  its output is not beyond the reader.
-/

namespace LintReport

/-! ### The lines of a report in a workflow -/

namespace Issue

/-- The lines above the issues in the summary. -/
def summaryHead (issues : List Issue) : List String :=
  let counts := count issues
  ["", rule, "Tempo Lint Results", rule, s!"Total issues: {issues.length}",
    s!"Errors: {counts.error}", s!"Warnings: {counts.warning}", s!"Hints: {counts.hint}", ""]

/-- A count is written on one line. -/
theorem notMem_count {label : String} (hlabel : '\n' ∉ label.toList) (n : Nat) :
    '\n' ∉ (label ++ toString n).toList := by
  have hdigits : '\n' ∉ (toString n).toList := fun h =>
    notMem_of_mem_intChars (i := (n : Int)) _ h (by decide)
  rw [String.toList_append, List.mem_append, not_or]
  exact ⟨hlabel, hdigits⟩

/-- Each line above the issues is one line. -/
theorem notMem_summaryHead (issues : List Issue) :
    ∀ line ∈ summaryHead issues, '\n' ∉ line.toList := by
  have hfixed : '\n' ∉ "".toList ∧ '\n' ∉ rule.toList ∧ '\n' ∉ "Tempo Lint Results".toList := by
    decide +kernel
  obtain ⟨hempty, hrule, htitle⟩ := hfixed
  simp only [summaryHead, List.forall_mem_cons]
  exact ⟨hempty, hrule, htitle, hrule, notMem_count (by decide) _, notMem_count (by decide) _,
    notMem_count (by decide) _, notMem_count (by decide) _, hempty, List.forall_mem_nil _⟩

/-- **The lines of a report in a workflow** are the commands of all issues, then the counts, and
then what is said about the issues. -/
theorem splitAt_workflowLines (issues : List Issue) :
    ∃ rest, Text.splitAt '\n' (textOfLines (workflowLines issues)) =
      issues.map commandLine ++ (summaryHead issues ++ rest) := by
  have hcommands : ∀ line ∈ issues.map commandLine, '\n' ∉ line.toList := by
    intro line hline
    obtain ⟨issue, -, rfl⟩ := List.mem_map.1 hline
    exact issue.notMem_commandLine (by decide)
  obtain ⟨below, hsummary⟩ : ∃ below, workflowSummary issues = summaryHead issues ++ below :=
    ⟨_, rfl⟩
  refine ⟨below.flatMap (Text.splitAt '\n') ++ [""], ?_⟩
  rw [splitAt_textOfLines, workflowLines, hsummary, List.flatMap_append, List.flatMap_append,
    Text.flatMap_splitAt_of_notMem hcommands,
    Text.flatMap_splitAt_of_notMem (notMem_summaryHead issues), List.append_assoc,
    List.append_assoc]

/-- Whether a line is a command of the level error. -/
def isErrorLine (line : String) : Bool := "::error ".toList.isPrefixOf line.toList

/-- The command of an issue is of the level error exactly when the issue is an error. -/
theorem isErrorLine_commandLine (issue : Issue) :
    isErrorLine issue.commandLine = issue.isError := by
  rw [isErrorLine, commandLine_eq, isError]
  simp only [String.toList_append, List.append_assoc]
  cases issue.level <;> rfl

/-- **As many commands are of the level error** as there are errors. -/
theorem countP_isErrorLine (issues : List Issue) :
    (issues.map commandLine).countP isErrorLine = (count issues).error := by
  rw [List.countP_map, count]
  refine List.countP_congr fun issue _ => ?_
  rw [Function.comp_apply, isErrorLine_commandLine, isError]

/-- An issue is an error when its severity is. -/
theorem isError_iff (issue : Issue) : issue.isError = true ↔ issue.severity = "error" := by
  rw [isError, level, Severity.ofText]
  split
  · next h => simpa using h
  · next h =>
    split
    · simpa using h
    · simpa using h

end Issue

/-! ### Results of a workflow step -/

namespace Scan

/-- Results of a workflow step are added to its file, and the delivery returns the code of the
report. -/
theorem deliver_run_append {report : Report} {text : String} (hstep : report.stepOutput = some text)
    (o : ScanOptions) {settings : Settings} {p : Path} (hfile : settings.stepOutputFile = some p)
    {s : Session} {t : FileTree} (happend : s.files.append p (Text.Utf8.encode text) = .ok t) :
    (deliver report o settings).run.run s =
      (.ok report.code, { s.afterReport report o.inWorkflow with files := t }) := by
  have hadd : (addText p text).run.run (s.afterReport report o.inWorkflow) =
      (.ok (), { s.afterReport report o.inWorkflow with files := t }) := by
    have happend' : (s.afterReport report o.inWorkflow).files.append p (Text.Utf8.encode text) =
      .ok t := happend
    rw [addText, Run.run_files_bind, happend']
    rfl
  rw [deliver_run_eq, hstep, hfile]
  exact run_bind_ok hadd

/-- Where there is no file for the results of the workflow step, nothing but the report is
written. -/
theorem deliver_run_noFile (report : Report) (o : ScanOptions) {settings : Settings}
    (hfile : settings.stepOutputFile = none) (s : Session) :
    (deliver report o settings).run.run s =
      (.ok report.code, s.afterReport report o.inWorkflow) := by
  rw [deliver_run_eq, hfile]
  cases report.stepOutput <;> rfl

end Scan

/-! ### The verdict -/

namespace Report

/-- The exit code is one exactly when an issue is an error. -/
theorem codeFor_eq_one_iff (issues : List Issue) :
    codeFor issues = 1 ↔ ∃ issue ∈ issues, issue.severity = "error" := by
  have hany : issues.any Issue.isError = true ↔ ∃ issue ∈ issues, issue.severity = "error" := by
    rw [List.any_eq_true]
    simp only [Issue.isError_iff]
  rw [codeFor, ← hany]
  split <;> simp_all

/-- The results of the workflow step name the verdict of the exit code. -/
theorem stepOutput_eq (issues : List Issue) :
    Issue.stepOutput issues =
      s!"total_issues={issues.length}\nhas_errors={decide (codeFor issues = 1)}\n" := by
  have hcode : decide (codeFor issues = 1) = issues.any Issue.isError := by
    rw [codeFor]
    cases issues.any Issue.isError <;> rfl
  exact congrArg (fun b : Bool => s!"total_issues={issues.length}\nhas_errors={b}\n") hcode.symm

/-- What a reader finds about issues: in the exit code, in the text that is printed without a
workflow, and in the text that is shown in one. -/
structure ShowsVerdict (issues : List Issue) (code : Int) (printed shown : String) : Prop where
  code_eq_one : code = 1 ↔ ∃ issue ∈ issues, issue.severity = "error"
  code_cases : code = 0 ∨ code = 1
  array : Json.parse printed = .ok (.arr (issues.map Issue.toJson))
  read_back : Issue.readOutput printed none = .ok ⟨issues, []⟩
  commands : (Text.splitAt '\n' shown).take issues.length = issues.map Issue.commandLine
  counts :
    [s!"Total issues: {issues.length}", s!"Errors: {(Issue.count issues).error}",
      s!"Warnings: {(Issue.count issues).warning}", s!"Hints: {(Issue.count issues).hint}"] <+:
      (Text.splitAt '\n' shown).drop (issues.length + 4)
  total : (Issue.count issues).error + (Issue.count issues).warning + (Issue.count issues).hint =
    issues.length
  errors : (Issue.count issues).error =
    ((Text.splitAt '\n' shown).take issues.length).countP Issue.isErrorLine

/-- Issues that were read are shown with one verdict. -/
theorem showsVerdict {issues : List Issue} (h : ∀ issue ∈ issues, issue.IsRead) :
    ShowsVerdict issues (codeFor issues) (textOfLines [(Issue.array issues).pretty])
      (textOfLines (Issue.workflowLines issues)) := by
  obtain ⟨rest, hlines⟩ := Issue.splitAt_workflowLines issues
  have hfirst : (Text.splitAt '\n' (textOfLines (Issue.workflowLines issues))).take issues.length =
      issues.map Issue.commandLine := by
    rw [hlines]
    exact List.take_left' (List.length_map _)
  rw [textOfLines_singleton]
  exact {
    code_eq_one := codeFor_eq_one_iff issues
    code_cases := by rw [codeFor]; split <;> simp
    array := Issue.parse_array h
    read_back := Issue.readOutput_pretty h
    commands := hfirst
    counts := by
      rw [hlines, ← List.drop_drop, List.drop_left' (List.length_map _)]
      exact ⟨"" :: rest, rfl⟩
    total := Issue.total_count issues
    errors := by rw [hfirst, Issue.countP_isErrorLine] }

/-- What is passed on of an output that holds no issues. -/
def passedOn (text : String) : String := if Text.isBlankText text then "" else text ++ "\n"

/-- **An output that holds no issues is passed on** with the code of the engine, in a workflow or
not, and no file changes. -/
theorem report_run_error {result : Engine.Result} {o : ScanOptions} {allowed : List String}
    {fault : OutputFault} (h : select result.output allowed o.excluded = .error fault)
    (hroom : ∀ limit, fault ≠ .beyond limit) (settings : Settings) (s : Session) :
    ∃ after, (Scan.report result o allowed settings).run.run s = (.ok result.code, after) ∧
      after.output = s.output ++ passedOn result.output ∧ after.files = s.files := by
  obtain ⟨r, hr, hcode, hstep, houtput⟩ : ∃ r, ofResult result o allowed = .ok r ∧
      r.code = result.code ∧ r.stepOutput = none ∧
      textOfLines r.output = passedOn result.output := by
    rw [ofResult, passedOn]
    cases hblank : Text.isBlankText result.output with
    | true => exact ⟨_, rfl, rfl, rfl, rfl⟩
    | false =>
      rw [if_neg Bool.false_ne_true, if_neg Bool.false_ne_true, h]
      cases fault with
      | beyond limit => exact absurd rfl (hroom limit)
      | _ => exact ⟨_, rfl, rfl, rfl, textOfLines_singleton _⟩
  rw [Scan.report_run_ok hr, Scan.deliver_run_ok hstep, hcode, ← houtput]
  exact ⟨_, rfl, rfl, rfl⟩

/-- **A report has one verdict, where its output is not beyond the reader.** For every run of the
engine, whatever its code and whatever rules are allowed or excluded, and where results of a
workflow step have no file or one that can be added to, a report as an array and a report in a
workflow of the same output go together:

* for an output that holds issues, and whose texts have no half of a surrogate pair on its own, they
  return one code, and the code, the array, the commands, the counts and what is added to the file
  agree on the issues that remain;
* an output that holds no issues is passed on with the code of the engine, and no file changes;
* an output that is beyond the reader ends both with that limit. Neither returns a code, and nothing
  is said, printed or written. -/
theorem verdicts_agree (result : Engine.Result) (o : ScanOptions) (allowed : List String)
    (settings : Settings) (before : Session)
    (hfile : ∀ p, settings.stepOutputFile = some p → before.files.CanAppend p) :
    let asArray : ScanOptions := { o with json := true, inWorkflow := false }
    let asCommands : ScanOptions := { o with inWorkflow := true }
    let array := (Scan.report result asArray allowed settings).run.run before
    let commands := (Scan.report result asCommands allowed settings).run.run before
    (∀ s, select result.output allowed o.excluded = .ok s → Json.PairsHalves result.output →
      ∃ (code : Int) (plain workflow : Session) (printed shown : String),
        array = (.ok code, plain) ∧ commands = (.ok code, workflow) ∧
        plain.output = before.output ++ printed ∧ workflow.output = before.output ++ shown ∧
        ShowsVerdict s.issues code printed shown ∧
        plain.files = before.files ∧
        (settings.stepOutputFile = none → workflow.files = before.files) ∧
        ∀ p, settings.stepOutputFile = some p →
          workflow.files.read p = .ok (before.files.contentAt p ++ Text.Utf8.encode
            s!"total_issues={s.issues.length}\nhas_errors={decide (code = 1)}\n") ∧
          ∀ l, before.files.resolve p ≠ .ok l → workflow.files.entry? l = before.files.entry? l) ∧
    (∀ fault, select result.output allowed o.excluded = .error fault →
      (∀ limit, fault ≠ .beyond limit) →
      ∃ plain workflow, array = (.ok result.code, plain) ∧ commands = (.ok result.code, workflow) ∧
        plain.output = before.output ++ passedOn result.output ∧ plain.files = before.files ∧
        workflow.output = before.output ++ passedOn result.output ∧
        workflow.files = before.files) ∧
    ∀ limit, Json.parse result.output = .error (.beyond limit) →
      array = (.error (.output limit), before) ∧ commands = (.error (.output limit), before) := by
  intro asArray asCommands array commands
  refine ⟨fun s hselect _ => ?_, fun fault hselect hroom => ?_, fun limit hlimit => ?_⟩
  · have hverdict := showsVerdict fun _ => isRead_of_select hselect
    have hasArray : ofResult result asArray allowed = .ok (ofSelection asArray s) :=
      ofResult_eq hselect
    have hasCommands : ofResult result asCommands allowed = .ok (ofSelection asCommands s) :=
      ofResult_eq hselect
    have hstepless : (ofSelection asArray s).stepOutput = none := rfl
    have harray := Scan.report_run_ok hasArray settings before
    have hcommands := Scan.report_run_ok hasCommands settings before
    rw [Scan.deliver_run_ok hstepless] at harray
    cases hstep : settings.stepOutputFile with
    | none =>
      rw [Scan.deliver_run_noFile _ _ hstep] at hcommands
      exact ⟨_, _, _, _, _, harray, hcommands, rfl, rfl, hverdict, rfl, fun _ => rfl, nofun⟩
    | some p =>
      obtain ⟨t, happend, hread, hframe⟩ :=
        (hfile p hstep).exists_append (Text.Utf8.encode (Issue.stepOutput s.issues))
      rw [stepOutput_eq] at hread
      rw [Scan.deliver_run_append rfl _ hstep happend] at hcommands
      exact ⟨_, _, _, _, _, harray, hcommands, rfl, rfl, hverdict, rfl, nofun,
        fun _ hp => Option.some.inj hp ▸ ⟨hread, hframe⟩⟩
  · obtain ⟨plain, harray, hprinted, hplain⟩ :=
      @report_run_error result asArray allowed fault hselect hroom settings before
    obtain ⟨workflow, hcommands, hshown, hworkflow⟩ :=
      @report_run_error result asCommands allowed fault hselect hroom settings before
    exact ⟨plain, workflow, harray, hcommands, hprinted, hplain, hshown, hworkflow⟩
  · exact ⟨Scan.report_run_beyond (ofResult_beyond hlimit asArray allowed) settings before,
      Scan.report_run_beyond (ofResult_beyond hlimit asCommands allowed) settings before⟩

/-- An output with an error and a hint, from an engine that ended well. -/
def mixedLevels : Engine.Result where
  code := 0
  output := "[\x7b\"ruleId\": \"a\", \"severity\": \"error\"\x7d, " ++
    "\x7b\"ruleId\": \"b\", \"severity\": \"info\"\x7d]"

/-- A session with a file for the results of the workflow step, which holds two octets. -/
def stepSession : Session where
  files := ⟨[(⟨.working, ["step"]⟩, .file [120, 10] false)]⟩

/-- An error among two issues is what the code, the first command, the count and the file say, even
though the engine itself ended well. -/
theorem mixedLevels_agree :
    ∃ (code : Int) (plain workflow : Session) (printed shown : String),
      (Scan.report mixedLevels { json := true } []
        { stepOutputFile := some (.parse "step") }).run.run stepSession = (.ok code, plain) ∧
      (Scan.report mixedLevels { inWorkflow := true, json := true } []
        { stepOutputFile := some (.parse "step") }).run.run stepSession = (.ok code, workflow) ∧
      plain.output = "" ++ printed ∧ workflow.output = "" ++ shown ∧
      code = 1 ∧
      (Text.splitAt '\n' shown).take 2 =
        ["::error file=unknown,line=1,col=1::a: Lint issue",
          "::warning file=unknown,line=1,col=1::b: Lint issue"] ∧
      workflow.files.read (.parse "step") =
        .ok ([120, 10] ++ Text.Utf8.encode "total_issues=2\nhas_errors=true\n") := by
  have hselect : select mixedLevels.output [] [] =
      .ok ⟨[⟨"a", "error", "Lint issue", "unknown", 1, 1, none⟩,
        ⟨"b", "hint", "Lint issue", "unknown", 1, 1, none⟩], []⟩ := by
    decide +kernel
  have hfile : ∀ p, some (Path.parse "step") = some p → stepSession.files.CanAppend p := by
    intro p hp
    rw [← Option.some.inj hp]
    exact ⟨_, rfl⟩
  obtain ⟨hverdict, -, -⟩ :=
    verdicts_agree mixedLevels { json := true } [] { stepOutputFile := some (.parse "step") }
      stepSession hfile
  obtain ⟨code, plain, workflow, printed, shown, hplain, hworkflow, hprinted, hshown, hshows, -, -,
    hadded⟩ := hverdict _ hselect (by decide +kernel)
  obtain ⟨hread, -⟩ := hadded _ rfl
  have hcode : code = 1 := hshows.code_eq_one.2 (by decide)
  have hcontent : stepSession.files.contentAt (.parse "step") = [120, 10] := by decide +kernel
  have htext : s!"total_issues={2}\nhas_errors={decide ((1 : Int) = 1)}\n" =
      "total_issues=2\nhas_errors=true\n" := by
    decide +kernel
  refine ⟨code, plain, workflow, printed, shown, hplain, hworkflow, hprinted, hshown, hcode,
    hshows.commands.trans (by decide +kernel), ?_⟩
  subst hcode
  rw [hread, hcontent]
  exact congrArg (fun text => Except.ok ([120, 10] ++ Text.Utf8.encode text)) htext

/-- An output of ten thousand open brackets, from an engine that ended well. -/
def openBrackets : Engine.Result where
  code := 0
  output := Json.openBrackets 10000

/-- **Open brackets have no verdict.** The output is no JSON and not blank, but it is not passed on:
both reports end with the limit of the reader. -/
theorem openBrackets_without_verdict :
    Text.isBlankText openBrackets.output = false ∧
    (∀ v, Json.parse openBrackets.output ≠ .ok v) ∧
    (Scan.report openBrackets { json := true } [] {}).run.run {} =
      (.error (.output .nesting), {}) ∧
    (Scan.report openBrackets { inWorkflow := true } [] {}).run.run {} =
      (.error (.output .nesting), {}) := by
  have hdeep : Json.depthLimit < 10000 := by decide
  have hlimit : Json.parse openBrackets.output = .error (.beyond .nesting) :=
    Json.parse_openBrackets hdeep
  refine ⟨Json.isBlankText_of_beyond hlimit, fun v hv => ?_, ?_, ?_⟩
  · cases hlimit.symm.trans hv
  · exact Scan.report_run_beyond (ofResult_beyond hlimit _ []) {} {}
  · exact Scan.report_run_beyond (ofResult_beyond hlimit _ []) {} {}

end Report

end LintReport
