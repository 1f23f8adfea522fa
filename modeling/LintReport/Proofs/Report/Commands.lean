import LintReport.Proofs.Json.Layout
import LintReport.Proofs.Report.Delivery
import LintReport.Proofs.WorkflowCommand.Decoding

/-!
# Commands in the Output of a Workflow

A workflow run reads every line that starts with two colons as a command. The line of an issue
escapes its texts, so it is one line whatever the issue holds. The summary below it and the warnings
show the same texts as they are, so a line break in them starts a line of its own.

## Main results

* `Issue.commandsIn_commandLine`: the line of an issue is one command.
* `commandsIn_workflowLines`: the commands of all issues come first, and every other command stands
  in the summary.
* `Issue.commandsIn_summaryLines_iff`: an issue starts a command in the summary exactly when two
  colons follow a line break in one of its texts.
* `Report.workflow_commands_iff`: **when a report shows the commands of its issues and no others**.
-/

namespace LintReport

/-! ### Lines of a text -/

/-- The lines of a text that is written line by line are those of what is written, and nothing
follows the last one. -/
theorem splitAt_textOfLines (lines : List String) :
    Text.splitAt '\n' (textOfLines lines) = lines.flatMap (Text.splitAt '\n') ++ [""] := by
  induction lines with
  | nil => rfl
  | cons line rest ih =>
    have hbetween : "\n".toList = ['\n'] := rfl
    rw [textOfLines, Text.splitAt_append_append hbetween, ih, List.flatMap_cons,
      List.append_assoc]

/-- Whether a line is read as a command. -/
def isCommandLine (line : String) : Bool := "::".toList.isPrefixOf line.toList

/-- The lines of a text that are read as commands. -/
def commandsIn (text : String) : List String := (Text.splitAt '\n' text).filter isCommandLine

/-- The commands in what is written line by line are those of its lines. -/
theorem commandsIn_textOfLines (lines : List String) :
    commandsIn (textOfLines lines) = lines.flatMap commandsIn := by
  rw [commandsIn, splitAt_textOfLines, List.filter_append, List.filter_flatMap]
  exact List.append_nil _

/-- A text holds no command when it does not start with two colons and none follow a line feed. -/
theorem commandsIn_eq_nil_iff (text : String) :
    commandsIn text = [] ↔ ¬ "::".toList <+: text.toList ∧ Text.contains "\n::" text = false := by
  have hmark : '\n' ∉ "::".toList := by decide
  have hpieces : commandsIn text = [] ↔
      ¬ ∃ piece ∈ Text.splitChars '\n' text.toList, "::".toList <+: piece := by
    rw [commandsIn, Text.splitAt, List.filter_eq_nil_iff]
    simp [isCommandLine]
  rw [hpieces, Text.exists_mem_splitChars_iff hmark, not_or, Text.contains,
    ← Bool.not_eq_true, Text.occursIn_iff_isInfix]
  rfl

/-! ### The command of an issue -/

namespace Issue

/-- The line of the command of an issue is read as a command. -/
theorem isCommandLine_commandLine (issue : Issue) : isCommandLine issue.commandLine = true := by
  rw [isCommandLine, List.isPrefixOf_iff_prefix, commandLine_eq]
  simp only [String.append_assoc, String.toList_append]
  exact List.prefix_append _ _

/-- **The command of an issue is the one command in its line.** -/
theorem commandsIn_commandLine (issue : Issue) :
    commandsIn issue.commandLine = [issue.commandLine] := by
  rw [commandsIn, Text.splitAt_of_notMem (issue.notMem_commandLine (by decide)),
    List.filter_cons_of_pos issue.isCommandLine_commandLine, List.filter_nil]

end Issue

/-! ### The summary -/

/-- A text that starts with another character than a colon holds a command exactly when two colons
follow a line break in it. -/
theorem commandsIn_eq_nil_iff_of_cons {text : String} {c : Char} {rest : List Char}
    (htext : text.toList = c :: rest) (hc : c ≠ ':') :
    commandsIn text = [] ↔ Text.contains "\n::" text = false := by
  rw [commandsIn_eq_nil_iff, and_iff_right]
  rw [htext]
  exact fun h => hc (List.cons_prefix_cons.1 h).1.symm

/-- A number holds neither a line break nor a colon. -/
theorem notMem_of_mem_intChars {i : Int} : ∀ c ∈ (toString i).toList, c ∉ "\n::".toList := by
  intro c hc
  have hmarks : ∀ d ∈ "\n::".toList, d ≠ '-' ∧ d.isDigit = false := by simp
  exact fun hmem =>
    Json.ne_of_signOrDigit (Json.signOrDigit_of_mem_intChars hc) (hmarks c hmem) rfl

namespace Issue

/-- Whether a text of an issue holds a line break before two colons. Behind the file stands the
colon before the number of the line. -/
def StartsCommand (issue : Issue) : Prop :=
  Text.contains "\n::" (issue.file ++ ":") = true ∨ Text.contains "\n::" issue.ruleId = true ∨
    Text.contains "\n::" issue.message = true

instance (issue : Issue) : Decidable issue.StartsCommand :=
  inferInstanceAs (Decidable (_ ∨ _ ∨ _))

/-- The place of an issue holds a command exactly when its file and the colon behind it do. -/
theorem commandsIn_place_iff (issue : Issue) :
    commandsIn s!"{issue.level.tag} {issue.file}:{issue.line}" = [] ↔
      Text.contains "\n::" (issue.file ++ ":") = false := by
  have hplace : s!"{issue.level.tag} {issue.file}:{issue.line}" =
      issue.level.tag ++ " " ++ (issue.file ++ ":" ++ toString issue.line) := by
    simp only [String.append_assoc]
    rfl
  have htag : Text.contains "\n::" issue.level.tag = false := by
    cases issue.level <;> decide
  obtain ⟨rest, hstart⟩ : ∃ rest, issue.level.tag.toList = '[' :: rest := by
    cases issue.level <;> exact ⟨_, rfl⟩
  have hchars : (issue.level.tag ++ " " ++ (issue.file ++ ":" ++ toString issue.line)).toList =
      '[' :: (rest ++ (" " ++ (issue.file ++ ":" ++ toString issue.line)).toList) := by
    rw [String.append_assoc, String.toList_append, hstart, List.cons_append]
  rw [hplace, commandsIn_eq_nil_iff_of_cons hchars (by decide),
    Text.contains_append_append rfl (by decide) (by decide), htag, Bool.false_or,
    Text.contains_append_left (by decide) notMem_of_mem_intChars]

/-- The words of an issue hold a command exactly when its rule or its message does. -/
theorem commandsIn_words_iff (issue : Issue) :
    commandsIn s!"[{issue.ruleId}] {issue.message}" = [] ↔
      Text.contains "\n::" issue.ruleId = false ∧ Text.contains "\n::" issue.message = false := by
  have hwords : s!"[{issue.ruleId}] {issue.message}" =
      "" ++ "[" ++ issue.ruleId ++ "]" ++ ("" ++ " " ++ issue.message) := by
    simp only [String.append_assoc, String.empty_append]
    rfl
  have hchars : ("" ++ "[" ++ issue.ruleId ++ "]" ++ ("" ++ " " ++ issue.message)).toList =
      '[' :: (issue.ruleId ++ "]" ++ ("" ++ " " ++ issue.message)).toList := by
    simp only [String.append_assoc, String.empty_append, String.toList_append]
    rfl
  have hempty : Text.contains "\n::" "" = false := by decide
  rw [hwords, commandsIn_eq_nil_iff_of_cons hchars (by decide),
    Text.contains_append_append rfl (by decide) (by decide),
    Text.contains_append_append rfl (by decide) (by decide),
    Text.contains_append_append rfl (by decide) (by decide), hempty, Bool.false_or, Bool.false_or,
    Bool.or_eq_false_iff]

/-- **An issue starts a command in the summary** exactly when two colons follow a line break in one
of its texts. -/
theorem commandsIn_summaryLines_iff (issue : Issue) :
    issue.summaryLines.flatMap commandsIn = [] ↔ ¬ issue.StartsCommand := by
  have hempty : commandsIn "" = [] := by decide
  rw [summaryLines, List.flatMap_cons, List.flatMap_cons, List.flatMap_singleton, hempty,
    List.append_nil, List.append_eq_nil_iff, commandsIn_place_iff, commandsIn_words_iff,
    StartsCommand, not_or, not_or]
  simp only [Bool.not_eq_true]

/-- A count holds no command. -/
theorem commandsIn_count {label : String} {c : Char} {rest : List Char}
    (hlabel : label.toList = c :: rest) (hc : c ≠ ':')
    (hquiet : Text.contains "\n::" label = false) (n : Nat) :
    commandsIn (label ++ toString n) = [] := by
  have hchars : (label ++ toString n).toList = c :: (rest ++ (toString n).toList) := by
    rw [String.toList_append, hlabel, List.cons_append]
  have hdigits : ∀ c ∈ (toString n).toList, c ∉ "\n::".toList :=
    notMem_of_mem_intChars (i := (n : Int))
  rw [commandsIn_eq_nil_iff_of_cons hchars hc, Text.contains_append_left (by decide) hdigits,
    hquiet]

/-- **Commands in the summary stand in the texts of issues.** -/
theorem commandsIn_workflowSummary (issues : List Issue) :
    (workflowSummary issues).flatMap commandsIn =
      issues.flatMap fun issue => issue.summaryLines.flatMap commandsIn := by
  have htotal : commandsIn s!"Total issues: {issues.length}" = [] :=
    commandsIn_count rfl (by decide) (by decide) _
  have herrors : commandsIn s!"Errors: {(count issues).error}" = [] :=
    commandsIn_count rfl (by decide) (by decide) _
  have hwarnings : commandsIn s!"Warnings: {(count issues).warning}" = [] :=
    commandsIn_count rfl (by decide) (by decide) _
  have hhints : commandsIn s!"Hints: {(count issues).hint}" = [] :=
    commandsIn_count rfl (by decide) (by decide) _
  have hfixed : commandsIn "" = [] ∧ commandsIn rule = [] ∧ commandsIn "Tempo Lint Results" = [] ∧
      commandsIn "No lint issues found!" = [] := by
    decide +kernel
  obtain ⟨hempty, hrule, htitle, hnone⟩ := hfixed
  simp only [workflowSummary, List.flatMap_append, List.flatMap_cons, List.flatMap_nil, htotal,
    herrors, hwarnings, hhints, hempty, hrule, htitle, List.nil_append]
  cases issues with
  | nil => simp only [List.isEmpty_nil, if_true, List.flatMap_cons, List.flatMap_nil, hnone,
      List.append_nil]
  | cons issue rest =>
    rw [List.isEmpty_cons, if_neg Bool.false_ne_true, List.flatMap_assoc]

/-- **The commands of all issues come first**, and every other command stands in the summary. -/
theorem commandsIn_workflowLines (issues : List Issue) :
    commandsIn (textOfLines (workflowLines issues)) =
      issues.map commandLine ++
        issues.flatMap fun issue => issue.summaryLines.flatMap commandsIn := by
  rw [commandsIn_textOfLines, workflowLines, List.flatMap_append, commandsIn_workflowSummary,
    List.flatMap_map]
  simp only [commandsIn_commandLine, List.map_eq_flatMap]

end Issue

/-! ### Warnings -/

namespace Warning

/-- The texts that a warning repeats as they are. -/
def texts : Warning → List String
  | .notAllowed issue => [issue.ruleId, issue.file]
  | .notFound ruleId => [ruleId]

/-- **A warning is one line** exactly when the texts in it are. -/
theorem mem_message_iff (w : Warning) :
    '\n' ∈ w.message.toList ↔ ∃ text ∈ w.texts, '\n' ∈ text.toList := by
  cases w with
  | notAllowed issue =>
    have hline : '\n' ∉ (toString issue.line).toList := fun h =>
      notMem_of_mem_intChars _ h (by decide)
    have hmessage : (notAllowed issue).message = "Filtered out non-tempo lint issue: " ++
        issue.ruleId ++ " in " ++ issue.file ++ ":" ++ toString issue.line := rfl
    have hfixed : '\n' ∉ "Filtered out non-tempo lint issue: ".toList ∧ '\n' ∉ " in ".toList ∧
        '\n' ∉ ":".toList := by
      decide
    rw [hmessage]
    simp only [String.toList_append, List.mem_append, hfixed, hline, texts,
      List.exists_mem_cons_iff, false_or, or_false, List.not_mem_nil, false_and, exists_false]
  | notFound ruleId =>
    have hmessage : (notFound ruleId).message = "Excluded rule \"" ++ ruleId ++
        "\" was not found in results (possible typo?)" := rfl
    have hfixed : '\n' ∉ "Excluded rule \"".toList ∧
        '\n' ∉ "\" was not found in results (possible typo?)".toList := by
      decide
    rw [hmessage]
    simp only [String.toList_append, List.mem_append, hfixed, texts, List.exists_mem_cons_iff,
      false_or, or_false, List.not_mem_nil, false_and, exists_false]

/-- The line of a warning in a workflow is one line exactly when the texts in it are. -/
theorem length_splitAt_eq_one_iff (w : Warning) :
    (Text.splitAt '\n' ("::warning::" ++ w.message)).length = 1 ↔
      ∀ text ∈ w.texts, '\n' ∉ text.toList := by
  have hmark : "::warning::".toList.count '\n' = 0 := by decide
  have hiff := not_congr w.mem_message_iff
  rw [not_exists] at hiff
  rw [Text.splitAt, List.length_map, Text.length_splitChars, String.toList_append,
    List.count_append, hmark, Nat.zero_add, Nat.add_eq_right, List.count_eq_zero, hiff]
  simp only [not_and]

end Warning

/-- Lists of at least one element each hold as many elements as there are lists exactly when each
holds one. -/
theorem length_flatMap_eq_iff {α β : Type} {f : α → List β} (hf : ∀ x, f x ≠ []) (xs : List α) :
    (xs.flatMap f).length = xs.length ↔ ∀ x ∈ xs, (f x).length = 1 := by
  have hpos (x : α) : 1 ≤ (f x).length := List.length_pos_iff.2 (hf x)
  have hle (xs : List α) : xs.length ≤ (xs.flatMap f).length := by
    induction xs with
    | nil => exact Nat.le_refl 0
    | cons x xs ih =>
      rw [List.flatMap_cons, List.length_append, List.length_cons]
      have := hpos x
      omega
  induction xs with
  | nil => simp
  | cons x xs ih =>
    rw [List.forall_mem_cons, List.flatMap_cons, List.length_append, List.length_cons]
    refine Iff.trans ?_ (and_congr_right' ih)
    have := hpos x
    have := hle xs
    omega

/-- The lines of the diagnostics of a workflow, without what follows the last line feed. -/
def diagnosticLines (text : String) : List String := (Text.splitAt '\n' text).dropLast

/-- **Warnings are written one to a line** exactly when no text in them has a line break. -/
theorem diagnosticLines_warnings_iff (warnings : List Warning) :
    let lines := diagnosticLines (textOfLines
      ((warnings.map fun w => Diagnostic.warning w.message).map (Diagnostic.line true)))
    (lines.length = warnings.length ∧ ∀ line ∈ lines, "::warning::".toList <+: line.toList) ↔
      ∀ w ∈ warnings, ∀ text ∈ w.texts, '\n' ∉ text.toList := by
  intro lines
  have hlines :
      lines = warnings.flatMap fun w => Text.splitAt '\n' ("::warning::" ++ w.message) := by
    change diagnosticLines _ = _
    rw [diagnosticLines, splitAt_textOfLines, List.dropLast_concat, List.map_map, List.flatMap_map]
    rfl
  have hpieces (w : Warning) : Text.splitAt '\n' ("::warning::" ++ w.message) ≠ [] := by
    rw [← List.length_pos_iff, Text.splitAt, List.length_map, Text.length_splitChars]
    exact Nat.succ_pos _
  have hlength : lines.length = warnings.length ↔
      ∀ w ∈ warnings, ∀ text ∈ w.texts, '\n' ∉ text.toList := by
    rw [hlines, length_flatMap_eq_iff hpieces]
    simp only [Warning.length_splitAt_eq_one_iff]
  rw [hlength, and_iff_left_iff_imp]
  intro hone line hline
  rw [hlines, List.mem_flatMap] at hline
  obtain ⟨w, hw, hline⟩ := hline
  have hnone : '\n' ∉ ("::warning::" ++ w.message).toList := by
    rw [String.toList_append, List.mem_append, not_or, w.mem_message_iff]
    refine ⟨by decide, ?_⟩
    rintro ⟨text, htext, hmem⟩
    exact hone w hw text htext hmem
  rw [Text.splitAt_of_notMem hnone, List.mem_singleton] at hline
  rw [hline, String.toList_append]
  exact List.prefix_append _ _

/-! ### A report in a workflow -/

namespace Report

/-- **A report in a workflow** prints the lines of its issues and says its warnings, whether or not
its last step fails. -/
theorem report_run_workflow {result : Engine.Result} {o : ScanOptions}
    (hworkflow : o.inWorkflow = true) {allowed : List String} {s : Selection}
    (hselect : select result.output allowed o.excluded = .ok s) (settings : Settings)
    (before : Session) :
    ∃ outcome files, (Scan.report result o allowed settings).run.run before =
      (outcome, { before with
        files := files
        output := before.output ++ textOfLines (Issue.workflowLines s.issues)
        diagnostics := before.diagnostics ++ textOfLines
          ((s.warnings.map fun w => Diagnostic.warning w.message).map (Diagnostic.line true)) }) := by
  have hlines : (ofSelection o s).output = Issue.workflowLines s.issues := by
    rw [ofSelection, hworkflow]
    rfl
  obtain ⟨outcome, files, hrun⟩ := Scan.deliver_run (ofSelection o s) o settings before
  rw [Session.afterReport, hlines, hworkflow] at hrun
  rw [Scan.report_run_ok (ofResult_eq hselect)]
  exact ⟨outcome, files, hrun⟩

/-- **A report shows the commands of its issues, and when it shows no others.** For every output of
the engine that holds issues, whatever rules are allowed or excluded, a report in a workflow prints
the commands of the issues that remain, one to a line and in order, before any other command. It
prints no other command exactly when no remaining issue has two colons behind a line break in its
file, rule or message, and it writes its warnings one to a line exactly when the rules and files
that they name have no line break. -/
theorem workflow_commands_iff (result : Engine.Result) (o : ScanOptions)
    (hworkflow : o.inWorkflow = true) (allowed : List String) (settings : Settings)
    (before : Session) {s : Selection}
    (hselect : select result.output allowed o.excluded = .ok s) :
    ∃ printed said outcome files,
      (Scan.report result o allowed settings).run.run before =
        (outcome, { before with
          files := files
          output := before.output ++ printed
          diagnostics := before.diagnostics ++ said }) ∧
      s.issues.map Issue.commandLine <+: commandsIn printed ∧
      (commandsIn printed = s.issues.map Issue.commandLine ↔
        ∀ issue ∈ s.issues, ¬ issue.StartsCommand) ∧
      ((diagnosticLines said).length = s.warnings.length ∧
          (∀ line ∈ diagnosticLines said, "::warning::".toList <+: line.toList) ↔
        ∀ w ∈ s.warnings, ∀ text ∈ w.texts, '\n' ∉ text.toList) := by
  obtain ⟨outcome, files, hrun⟩ := report_run_workflow hworkflow hselect settings before
  refine ⟨_, _, outcome, files, hrun, ?_, ?_, diagnosticLines_warnings_iff s.warnings⟩
  · rw [Issue.commandsIn_workflowLines]
    exact List.prefix_append _ _
  · rw [Issue.commandsIn_workflowLines, List.append_right_eq_self, List.flatMap_eq_nil_iff]
    simp only [Issue.commandsIn_summaryLines_iff]

/-- An output whose message has two lines, of which the second one is no command. -/
def twoLines : Engine.Result where
  code := 0
  output := "[\x7b\"ruleId\": \"a\", \"message\": \"one\\n:two\"\x7d, \x7b\"ruleId\": \"b\"\x7d]"

/-- A message of two lines shows one command, and the warning about the other rule is one line. -/
theorem twoLines_commands :
    ∃ printed said outcome files,
      (Scan.report twoLines { inWorkflow := true } ["a"] {}).run.run {} =
        (outcome, { files := files, output := "" ++ printed, diagnostics := "" ++ said }) ∧
      commandsIn printed = ["::warning file=unknown,line=1,col=1::a: one%0A:two"] ∧
      (diagnosticLines said).length = 1 := by
  have hselect : select twoLines.output ["a"] [] =
      .ok ⟨[⟨"a", "warning", "one\n:two", "unknown", 1, 1, none⟩],
        [.notAllowed ⟨"b", "warning", "Lint issue", "unknown", 1, 1, none⟩]⟩ := by
    decide +kernel
  obtain ⟨printed, said, outcome, files, hrun, -, hcommands, hwarnings⟩ :=
    workflow_commands_iff twoLines { inWorkflow := true } rfl ["a"] {} {} hselect
  have hone : commandsIn printed = _ := hcommands.2 (by decide +kernel)
  refine ⟨printed, said, outcome, files, hrun, ?_, (hwarnings.2 (by decide +kernel)).1⟩
  rw [hone]
  decide +kernel

/-- An output whose message starts a command on its second line, and with a rule of two lines. -/
def smuggled : Engine.Result where
  code := 0
  output := "[\x7b\"ruleId\": \"a\", \"message\": \"one\\n::error::two\"\x7d, " ++
    "\x7b\"ruleId\": \"b\\nc\"\x7d]"

/-- The issue and the warning of that output, where the rule of the first one is allowed. -/
def smuggledSelection : Selection where
  issues := [⟨"a", "warning", "one\n::error::two", "unknown", 1, 1, none⟩]
  warnings := [.notAllowed ⟨"b\nc", "warning", "Lint issue", "unknown", 1, 1, none⟩]

/-- **A message can start a command.** The second line of a message is printed as an error of its
own, and the warning about a rule of two lines is two lines. -/
theorem smuggled_starts_command :
    ∃ s printed said outcome files,
      select smuggled.output ["a"] [] = .ok s ∧
      (Scan.report smuggled { inWorkflow := true } ["a"] {}).run.run {} =
        (outcome, { files := files, output := "" ++ printed, diagnostics := "" ++ said }) ∧
      commandsIn printed = s.issues.map Issue.commandLine ++ ["::error::two"] ∧
      s.warnings.length = 1 ∧
      diagnosticLines said =
        ["::warning::Filtered out non-tempo lint issue: b", "c in unknown:1"] := by
  have hselect : select smuggled.output ["a"] [] = .ok smuggledSelection := by decide +kernel
  have hbelow : smuggledSelection.issues.flatMap
      (fun issue => issue.summaryLines.flatMap commandsIn) = ["::error::two"] := by
    decide +kernel
  obtain ⟨outcome, files, hrun⟩ :=
    @report_run_workflow smuggled { inWorkflow := true } rfl ["a"] _ hselect {} {}
  refine ⟨smuggledSelection, _, _, outcome, files, hselect, hrun, ?_, rfl, ?_⟩
  · rw [Issue.commandsIn_workflowLines, hbelow]
  · decide +kernel

end Report

end LintReport
