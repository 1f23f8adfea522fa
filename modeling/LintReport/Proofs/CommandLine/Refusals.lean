import LintReport.Proofs.CommandLine.RuleFaults

/-!
# Refusals and the Engine

A scan can be refused at two places. Rule directories that cannot be written to the configuration
are refused before the engine is run. A rule file that is not well-formed is refused after it, since
the rules are read only once there is an output to select from; a scan that passes the output
through never reads them. So what a refusal says about the engine can be told from the directories
alone.

## Main definitions

* `Scan.EndsRefused`: results that are told to the user as a refused configuration.
* `Scan.RanEngine`: sessions in which the engine has run once more, and answered.
* `Scan.Answered`: what the engine has to do with the answer of a scan.

## Main results

* `Scan.engineResult_answered`: a scan gets its answer in one of three ways.
* `Scan.conclude_endsRefused_iff`: when the answer is refused.
* `Scan.run_endsRefused_iff`: **which scans are refused, and which of them have run the engine**.
-/

namespace LintReport

namespace Scan

open CommandLine.Lint (refusal? quietSurroundings sessionWithRules)

variable {around : Surroundings} {selector : LanguageSelector} {language path : String}
  {o : ScanOptions} {settings : Settings} {s : Session}

/-- Whether a result is a fault that is told to the user as a refused configuration. -/
def EndsRefused (result : Except ScanFault Int) (refusal : ConfigurationFault) : Prop :=
  ∃ fault, result = .error fault ∧ refusal? fault = some refusal

theorem endsRefused_error_iff {fault : ScanFault} {refusal : ConfigurationFault} :
    EndsRefused (.error fault) refusal ↔ refusal? fault = some refusal := by
  simp [EndsRefused]

theorem not_endsRefused_ok (code : Int) (refusal : ConfigurationFault) :
    ¬ EndsRefused (.ok code) refusal := by
  simp [EndsRefused]

/-- A fault of the directories is a refusal or not. -/
theorem refusal?_configuration_iff {fault : ReadFault} {refusal : ConfigurationFault} :
    refusal? (.configuration fault) = some refusal ↔ fault = .refused refusal := by
  cases fault <;> simp [refusal?]

/-- So is a fault of the rules. -/
theorem refusal?_rules_iff {fault : RuleFault} {refusal : ConfigurationFault} :
    refusal? (.rules fault) = some refusal ↔ fault = .document (.refused refusal) := by
  cases fault with
  | text => simp [refusal?]
  | document fault => cases fault <;> simp [refusal?]

/-- Whether one more command has been run, and what it answered. -/
def RanEngine (around : Surroundings) (before after : Session)
    (answer : Except Engine.Fault Engine.Result) : Prop :=
  ∃ record, after.commands = before.commands ++ [record] ∧
    around.runner record.files record.command record.keepsOutput = answer

/-- A command that has been run has one answer. -/
theorem RanEngine.unique {before after : Session} {answer other : Except Engine.Fault Engine.Result}
    (h : RanEngine around before after answer) (hother : RanEngine around before after other) :
    answer = other := by
  obtain ⟨record, hcommands, rfl⟩ := h
  obtain ⟨record', hcommands', rfl⟩ := hother
  obtain rfl := List.singleton_inj.1 (List.append_cancel_left (hcommands.symm.trans hcommands'))
  rfl

/-- Where a command has been run, it is not so that none has. -/
theorem RanEngine.commands_ne {before after : Session}
    {answer : Except Engine.Fault Engine.Result} (h : RanEngine around before after answer) :
    after.commands ≠ before.commands := by
  obtain ⟨record, hcommands, -⟩ := h
  simp [hcommands]

/-- **What the engine has to do with the answer of a scan**: it is not run where the directories are
refused or the configuration cannot be written, and else it is run once and gives the answer. -/
inductive Answered (around : Surroundings) (generated : Except ReadFault String)
    (before after : Session) : Except ScanFault Engine.Result → Prop
  | refused {fault : ReadFault} : generated = .error fault → after.commands = before.commands →
      Answered around generated before after (.error (.configuration fault))
  | unwritten {text : String} {fault : FileFault} : generated = .ok text →
      after.commands = before.commands →
      Answered around generated before after (.error (.file fault))
  | ran {text : String} {answer : Except Engine.Fault Engine.Result} : generated = .ok text →
      RanEngine around before after answer →
      Answered around generated before after (answer.mapError ScanFault.engine)

/-- An answer is a refusal only where the engine has not run, and an output only where it has. -/
theorem Answered.refusal_or_output_iff {generated : Except ReadFault String}
    {before after : Session} {answer : Except ScanFault Engine.Result}
    (h : Answered around generated before after answer) (refusal : ConfigurationFault) (P : Prop) :
    ((∃ fault, answer = .error fault ∧ refusal? fault = some refusal) ∨
        ∃ output, answer = .ok output ∧ P) ↔
      generated = .error (.refused refusal) ∨
        ((∃ text, generated = .ok text) ∧ (∃ output, RanEngine around before after (.ok output)) ∧
          P) := by
  cases h with
  | refused hgenerated hnone => simp [hgenerated, refusal?_configuration_iff]
  | unwritten hgenerated hnone =>
    have hnot (output : Engine.Result) : ¬ RanEngine around before after (.ok output) :=
      fun h => h.commands_ne hnone
    simp [hgenerated, hnot, refusal?]
  | @ran _ engine hgenerated hran =>
    cases engine with
    | error fault =>
      have hnot (output : Engine.Result) : ¬ RanEngine around before after (.ok output) :=
        fun h => nomatch h.unique hran
      simp [hgenerated, hnot, Except.mapError, refusal?]
    | ok output =>
      have hany : ∃ output, RanEngine around before after (.ok output) := ⟨output, hran⟩
      simp [hgenerated, hany, Except.mapError]

/-- The engine is not run where the directories are refused. -/
theorem Answered.commands_eq {generated : Except ReadFault String} {before after : Session}
    {answer : Except ScanFault Engine.Result} {fault : ReadFault}
    (h : Answered around generated before after answer) (hgenerated : generated = .error fault) :
    after.commands = before.commands := by
  cases h with
  | refused _ hnone => exact hnone
  | unwritten hok => cases hok.symm.trans hgenerated
  | ran hok => cases hok.symm.trans hgenerated

/-- A scan gets its answer in one of these ways, and no file is left changed. -/
theorem engineResult_answered (hfresh : around.IsFresh s.files) :
    ∃ answer after, (engineResult around selector path o settings).run.run s = (answer, after) ∧
      after.files = s.files ∧
      Answered around (Configuration.generate ((selector.ruleDirs settings.rulesRoot).map Path.text))
        s after answer := by
  cases hgenerate : Configuration.generate ((selector.ruleDirs settings.rulesRoot).map Path.text) with
  | error fault =>
    exact ⟨_, s, withConfiguration_refused hfresh hgenerate _, rfl, .refused rfl rfl⟩
  | ok text =>
    by_cases hshort : around.configuration.text.utf8ByteSize < FileTree.pathLimit
    · obtain ⟨inside, -, hruns⟩ := withConfiguration_run hfresh hgenerate hshort
        (runEngine around (Engine.resolve settings.engine around.installed ::
          Engine.arguments around.configuration path o) o.readsIssues)
      exact ⟨_, _, hruns _ _ (runEngine_run _ _ _) rfl, rfl, .ran rfl ⟨_, rfl, rfl⟩⟩
    · exact ⟨_, s, withConfiguration_tooLong hfresh hgenerate (Nat.not_lt.1 hshort) _, rfl,
        .unwritten rfl rfl⟩

/-- A delivery is never refused: it only fails where text cannot be added to a file. -/
theorem not_endsRefused_deliver (report : Report) (refusal : ConfigurationFault) :
    ¬ EndsRefused ((deliver report o settings).run.run s).1 refusal := by
  rw [deliver_run_eq]
  split
  · next text p _ _ =>
    cases hadd : (s.afterReport report o.inWorkflow).files.append p (Text.Utf8.encode text) with
    | ok t =>
      rw [run_bind_ok (addText_run_ok hadd)]
      exact not_endsRefused_ok _ refusal
    | error kind =>
      rw [run_bind_error (addText_run_error hadd), endsRefused_error_iff]
      exact nofun
  · exact not_endsRefused_ok _ refusal

/-- A report is never refused: where the reader has no room for an output, that is another fault. -/
theorem not_endsRefused_report (result : Engine.Result) (allowed : List String)
    (refusal : ConfigurationFault) :
    ¬ EndsRefused ((report result o allowed settings).run.run s).1 refusal := by
  cases h : Report.ofResult result o allowed with
  | error limit =>
    rw [report_run_beyond h, endsRefused_error_iff]
    exact nofun
  | ok r =>
    rw [report_run_ok h]
    exact not_endsRefused_deliver r refusal

/-- **Which answers to a scan end it refused**: those that are refusals, and outputs that are read
where the rules to select from are refused. -/
theorem conclude_endsRefused_iff {answer : Except ScanFault Engine.Result}
    {refusal : ConfigurationFault} :
    EndsRefused ((conclude selector o settings answer).run.run s).1 refusal ↔
      (∃ fault, answer = .error fault ∧ refusal? fault = some refusal) ∨
        ∃ ran, answer = .ok ran ∧ o.readsIssues = true ∧
          Rules.StopsWith s.files (selector.ruleDirs settings.rulesRoot)
            (.document (.refused refusal)) := by
  cases answer with
  | error fault =>
    simp only [Except.error.injEq, exists_eq_left', reduceCtorEq, false_and, exists_false, or_false]
    cases fault with
    | engine fault =>
      -- what goes wrong with the engine itself is told in other words, or ends the scan
      cases fault with
      | launch => exact iff_of_false (not_endsRefused_ok _ refusal) (by simp [refusal?])
      | interrupted => exact iff_of_false (not_endsRefused_ok _ refusal) (by simp [refusal?])
      | _ => exact endsRefused_error_iff
    | _ => exact endsRefused_error_iff
  | ok ran =>
    simp only [reduceCtorEq, false_and, exists_false, false_or, Except.ok.injEq, exists_eq_left']
    rw [conclude]
    cases hreads : o.readsIssues with
    | false => exact iff_of_false (not_endsRefused_ok _ refusal) fun h => Bool.false_ne_true h.1
    | true =>
      rw [if_pos rfl, Run.run_files_bind, ← Rules.ids_eq_error_iff, eq_self, true_and]
      cases Rules.ids s.files selector settings.rulesRoot with
      | error fault =>
        rw [Except.error.injEq, ← refusal?_rules_iff]
        exact endsRefused_error_iff
      | ok allowed =>
        exact iff_of_false (not_endsRefused_report ran allowed refusal) (by simp)

/-- **Which scans are refused, and which of them have run the engine.** For every language that is
one, rules with any content, path, options and settings, whatever the engine answers:

* a scan is refused exactly where its rule directories are refused, or where these are accepted, the
  engine has run once and given an output, the output is read, and the reading of the rules stops at
  a text that is not well-formed;
* a scan that is refused has not run the engine exactly where its rule directories are refused;
* so a scan that passes the output through is refused only before the engine is run. -/
theorem run_endsRefused_iff (around : Surroundings) {language : String}
    {selector : LanguageSelector} (hvalid : LanguageSelector.ofText? language = some selector)
    (path : String) (o : ScanOptions) (settings : Settings) (s : Session)
    (hfresh : around.IsFresh s.files) :
    let dirs := selector.ruleDirs settings.rulesRoot
    let generated := Configuration.generate (dirs.map Path.text)
    let ran := (run around language path o settings).run.run s
    (∀ refusal, EndsRefused ran.1 refusal ↔
      generated = .error (.refused refusal) ∨
        ((∃ text, generated = .ok text) ∧ (∃ answer, RanEngine around s ran.2 (.ok answer)) ∧
          o.readsIssues = true ∧ Rules.StopsWith s.files dirs (.document (.refused refusal)))) ∧
    (∀ refusal, EndsRefused ran.1 refusal →
      (ran.2.commands = s.commands ↔ generated = .error (.refused refusal))) ∧
    (o.readsIssues = false → ∀ refusal, EndsRefused ran.1 refusal →
      ran.2.commands = s.commands) := by
  intro dirs generated ran
  obtain ⟨diagnostics, hrun⟩ := @run_eq around selector language o settings hvalid path s
  obtain ⟨answer, after, hengine, hfiles, hanswered⟩ := @engineResult_answered around selector path
    o settings { s with diagnostics := diagnostics } hfresh
  rw [hengine] at hrun
  obtain ⟨result, s', hconclude, hcommands, -, -⟩ := @conclude_run selector o settings answer after
  -- what is done with the answer runs no command
  have hafter : ran.2.commands = after.commands := by
    rw [show ran = (result, s') from hrun.trans hconclude, hcommands]
  have hrefused (refusal : ConfigurationFault) : EndsRefused ran.1 refusal ↔
      generated = .error (.refused refusal) ∨
        ((∃ text, generated = .ok text) ∧ (∃ answer, RanEngine around s ran.2 (.ok answer)) ∧
          o.readsIssues = true ∧ Rules.StopsWith s.files dirs (.document (.refused refusal))) := by
    rw [show ran = _ from hrun, conclude_endsRefused_iff, hfiles,
      hanswered.refusal_or_output_iff refusal]
    simp only [RanEngine, ← hafter, show ran = _ from hrun]
    rfl
  have hearly (refusal : ConfigurationFault) (hended : EndsRefused ran.1 refusal) :
      ran.2.commands = s.commands ↔ generated = .error (.refused refusal) := by
    obtain hgenerated | ⟨⟨text, hgenerated⟩, ⟨answer, hran⟩, -⟩ := (hrefused refusal).1 hended
    · exact iff_of_true (hafter.trans (hanswered.commands_eq hgenerated)) hgenerated
    · exact iff_of_false hran.commands_ne (by rw [hgenerated]; nofun)
  refine ⟨hrefused, hearly, fun hpasses refusal hended => ?_⟩
  obtain hgenerated | ⟨-, -, hreads, -⟩ := (hrefused refusal).1 hended
  · exact (hearly refusal hended).2 hgenerated
  · cases hpasses.symm.trans hreads

/-- Settings whose rules lie where a path has the mark of a comment. -/
def commentSettings : Settings where
  rulesRoot := ⟨.top, ["my #rules"]⟩

/-- Rule directories with the mark of a comment are refused before the engine is run, although what
it finds is to be fixed. -/
theorem commentSettings_refused_early :
    let ran := (run quietSurroundings "rust" "src" { json := true, fix := true }
      commentSettings).run.run (sessionWithRules [])
    EndsRefused ran.1 (.unwritableDirs ["/my #rules/shared/rust", "/my #rules/rust"]) ∧
      ran.2.commands = [] := by
  dsimp only
  have hvalid : LanguageSelector.ofText? "rust" = some (.only .rust) := by decide
  have hfresh : quietSurroundings.IsFresh (sessionWithRules []).files :=
    ⟨.of_entries (by decide) (by decide), _, rfl⟩
  have hgenerated : Configuration.generate
      (((LanguageSelector.only .rust).ruleDirs commentSettings.rulesRoot).map Path.text) =
      .error (.refused (.unwritableDirs ["/my #rules/shared/rust", "/my #rules/rust"])) := by
    decide +kernel
  obtain ⟨hrefused, hearly, -⟩ := run_endsRefused_iff quietSurroundings hvalid "src"
    { json := true, fix := true } commentSettings (sessionWithRules []) hfresh
  have hended := (hrefused _).2 (.inl hgenerated)
  exact ⟨hended, (hearly _ hended).2 hgenerated⟩

/-- A list without an end is refused after the engine has run and fixed what it found. -/
theorem endlessList_refused_late :
    let ran := (run quietSurroundings "rust" "src" { json := true, fix := true }
      { rulesRoot := ⟨.top, ["rules"]⟩ }).run.run (sessionWithRules (Text.Utf8.encode "id: ["))
    EndsRefused ran.1 (.ruleSyntax "/rules/rust/a.yml") ∧
      ran.2.commands.map (·.command) = [["ast-grep", "scan", "--config",
        "/tmp/tempo-lints-a/sgconfig.yml", "--json", "--update-all", "src"]] := by
  dsimp only
  refine ⟨⟨.rules (.document (.refused (.ruleSyntax "/rules/rust/a.yml"))), ?_, rfl⟩, ?_⟩
  · decide +kernel
  · decide +kernel

end Scan

end LintReport
