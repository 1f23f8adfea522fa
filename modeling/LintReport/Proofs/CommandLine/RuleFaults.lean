import LintReport.CommandLine.Lint
import LintReport.Proofs.Rules.Faults
import LintReport.Proofs.Scan.Configured

/-!
# Rules That End the Command

A command that reads issues asks for the rules once the engine has run. Where the rules cannot be
read, the fault decides how it ends. A rule file that is not well-formed is told by its name, and
the command ends with one. For every other fault there is no answer: the command ends with the fault
itself, and nothing is told.

## Main definitions

* `Lint.ReachesRules`: commands that have run the engine and go on to the rules.

## Main results

* `Lint.run_of_ruleFault`: how such a command ends with each fault.
* `Lint.unreadable_rules_told_iff`: **unreadable rules are told exactly where a text is not
  well-formed**.
-/

namespace LintReport

/-- A scan whose engine has run ends with the fault of the rules. -/
theorem Scan.run_of_ruleFault {around : Surroundings} {language path : String}
    {selector : LanguageSelector} {o : ScanOptions} {settings : Settings} {s s' : Session}
    {answer : Engine.Result} {fault : RuleFault}
    (hvalid : LanguageSelector.ofText? language = some selector) (hreads : o.readsIssues = true)
    (hengine : (engineResult around selector path o settings).run.run s = (.ok answer, s'))
    (hids : Rules.ids s'.files selector settings.rulesRoot = .error fault) :
    (run around language path o settings).run.run s = (.error (.rules fault), s') := by
  have hanswer := Run.run_attempt (δ := ScanFault) (engineResult around selector path o settings) s
  rw [hengine] at hanswer
  rw [run, hvalid]
  dsimp only
  rw [hreads, if_neg (by simp)]
  refine (run_bind_ok hanswer).trans ?_
  dsimp only
  rw [if_pos rfl, Run.run_files_bind, hids]
  rfl

namespace CommandLine.Lint

/-- **Commands that go on to the rules**: they are no vendoring, they read issues in the language
that they name, and their engine has run. -/
structure ReachesRules (around : Scan.Surroundings) (env : Environment) (arguments : List String)
    (settings : Settings) (selector : LanguageSelector) (before after : Session) : Prop where
  environment : Settings.ofEnvironment env = .ok settings
  noVendoring : arguments.head? ≠ some "vendor"
  reads : ∃ a, grammar.read arguments = .ok a ∧ a.options.readsIssues = true ∧
    LanguageSelector.ofText? a.language = some selector ∧
    ∃ answer, (Scan.engineResult around selector a.path a.options settings).run.run before =
      (.ok answer, after)

/-- **How a command ends with a fault of the rules**: it tells a refusal and ends with one, and it
ends with every other fault. -/
theorem run_of_ruleFault {around : Scan.Surroundings} {env : Environment} {arguments : List String}
    {settings : Settings} {selector : LanguageSelector} {before after : Session} {fault : RuleFault}
    (h : ReachesRules around env arguments settings selector before after)
    (hids : Rules.ids after.files selector settings.rulesRoot = .error fault) :
    (run around env arguments).run.run before =
      match refusal? (.rules fault) with
      | some refusal => (.ok (.returned 1), { after with diagnostics :=
          after.diagnostics ++ (Diagnostic.error refusal.message).line false ++ "\n" })
      | none => (.error (.scan (.rules fault)), after) := by
  obtain ⟨a, hread, hissues, hselector, answer, hengine⟩ := h.reads
  have hscans : run around env arguments = scan around settings a := by
    rw [run, h.environment]
    dsimp only
    split
    · exact absurd rfl h.noVendoring
    · rw [Grammar.run, hread]
  have hran := Run.run_attempt (δ := Fault)
    (Scan.run around a.language a.path a.options settings) before
  rw [Scan.run_of_ruleFault hselector hissues hengine hids] at hran
  rw [hscans, scan]
  refine (run_bind_ok hran).trans ?_
  dsimp only
  cases refusal? (.rules fault) <;> rfl

/-- **Unreadable rules are told exactly where a text is not well-formed.** For every tree of files
and every selection of rules:

* the ids of the rules cannot be got exactly where the reading stops, with the fault with which it
  stops: a path that is too long, octets that are no text, a text that is not well-formed, or a
  scalar without a value;
* a path that is too long is that of a rule directory or of something directly in it;
* the ids are got, or a rule file that lies directly in a selected directory is refused by its name,
  exactly where reading does not stop with one of the other three;
* a command that goes on to these rules tells the name of a refused file and ends with one; with
  each of the other three it ends itself, and neither tells it nor returns a code. -/
theorem unreadable_rules_told_iff (t : FileTree) (selector : LanguageSelector) (root : Path) :
    let dirs := selector.ruleDirs root
    (∀ fault, Rules.ids t selector root = .error fault ↔ Rules.StopsWith t dirs fault) ∧
    (∀ e, Rules.StopsWith t dirs (.text (.file e)) →
      ∃ dir ∈ dirs, ∃ p, (p = dir ∨ ∃ name, p = dir.child name) ∧
        t.stat p = .error .nameTooLong ∧ e = ⟨.nameTooLong, p.text⟩) ∧
    (((∃ found, Rules.ids t selector root = .ok found) ∨
        ∃ dir ∈ dirs, ∃ path, Rules.IsRuleFile t dir path ∧
          Rules.ids t selector root = .error (.document (.refused (.ruleSyntax path.text)))) ↔
      (∀ e, ¬ Rules.StopsWith t dirs (.text (.file e))) ∧
        ¬ Rules.StopsWith t dirs (.text .notUtf8) ∧
        ∀ e, ¬ Rules.StopsWith t dirs (.document (.scalar e))) ∧
    ∀ (around : Scan.Surroundings) (env : Environment) (arguments : List String)
      (settings : Settings) (before after : Session),
      ReachesRules around env arguments settings selector before after → after.files = t →
      settings.rulesRoot = root →
      let ran := (run around env arguments).run.run before
      (∀ path, Rules.StopsWith t dirs (.document (.refused (.ruleSyntax path))) →
        ran = (.ok (.returned 1), { after with diagnostics := after.diagnostics ++
          "[tempo-lints] error: invalid YAML in " ++ path ++ "\n" })) ∧
      (∀ fault, Rules.StopsWith t dirs fault → (∀ refusal, fault ≠ .document (.refused refusal)) →
        ran = (.error (.scan (.rules fault)), after)) := by
  intro dirs
  refine ⟨fun fault => Rules.ids_eq_error_iff, fun e h => h.exists_tooLong, Rules.ids_refused_iff,
    ?_⟩
  rintro around env arguments settings before after hreaches rfl rfl
  constructor
  · intro path hstops
    rw [run_of_ruleFault hreaches (Rules.ids_eq_error_iff.2 hstops)]
    have hline : (Diagnostic.error (ConfigurationFault.ruleSyntax path).message).line false =
        "[tempo-lints] error: invalid YAML in " ++ path := by
      have hwords : "[tempo-lints] error: invalid YAML in " =
          "[tempo-lints] error: " ++ "invalid YAML in " := by decide
      rw [hwords, String.append_assoc]
      dsimp only [Diagnostic.line, ConfigurationFault.message, toString]
      rfl
    dsimp only [refusal?]
    rw [hline]
    simp only [String.append_assoc]
  · intro fault hstops hother
    rw [run_of_ruleFault hreaches (Rules.ids_eq_error_iff.2 hstops)]
    have hnone : refusal? (.rules fault) = none := by
      cases fault with
      | text => rfl
      | document fault =>
        cases fault with
        | refused refusal => exact absurd rfl (hother refusal)
        | scalar | unshown => rfl
    rw [hnone]

/-- Surroundings in which every program finds no issues, and the directory is made in `/tmp`. -/
def quietSurroundings : Scan.Surroundings where
  runner _ _ _ := .ok ⟨0, "[]"⟩
  installed _ := none
  scratch := ⟨.top, ["tmp", "tempo-lints-a"]⟩

/-- An environment that says where the rules are. -/
def rulesEnvironment : Environment := [("TEMPO_LINTS_RULES_ROOT", "/rules")]

/-- A session with one rule file of some octets. -/
def sessionWithRules (octets : List UInt8) : Session where
  files := ⟨[(⟨.top, ["tmp"]⟩, .directory), (⟨.top, ["rules"]⟩, .directory),
    (⟨.top, ["rules", "rust"]⟩, .directory),
    (⟨.top, ["rules", "rust", "a.yml"]⟩, .file octets false)]⟩

/-- A list without an end is told by the name of its file. -/
theorem endlessList_told :
    let before := sessionWithRules (Text.Utf8.encode "id: [")
    let ran := (run quietSurroundings rulesEnvironment ["rust", "--json"]).run.run before
    ran.1 = .ok (.returned 1) ∧
      ran.2.diagnostics = "[tempo-lints] error: invalid YAML in /rules/rust/a.yml\n" := by
  intro before ran
  let a : Arguments := { language := "rust", json := true }
  let settings : Settings := { rulesRoot := ⟨.top, ["rules"]⟩ }
  have hfresh : quietSurroundings.IsFresh before.files :=
    ⟨.of_entries (by decide) (by decide), _, rfl⟩
  have hgenerate : Configuration.generate ["/rules/shared/rust", "/rules/rust"] =
      .ok "ruleDirs:\n  - /rules/shared/rust\n  - /rules/rust\n" := by
    decide +kernel
  obtain ⟨inside, -, hruns⟩ := Scan.withConfiguration_run
    (s := before) hfresh hgenerate (by decide)
    (Scan.runEngine quietSurroundings (Engine.resolve settings.engine quietSurroundings.installed ::
      Engine.arguments quietSurroundings.configuration a.path a.options) true)
  have hengine := hruns _ _ (Scan.runEngine_run _ _ _) rfl
  have hreaches : ReachesRules quietSurroundings rulesEnvironment ["rust", "--json"] settings
      (.only .rust) before _ := {
    environment := by decide +kernel
    noVendoring := by decide
    reads := ⟨a, by decide +kernel, rfl, by decide, ⟨0, "[]"⟩, hengine⟩ }
  have hids : Rules.ids before.files (.only .rust) settings.rulesRoot =
      .error (.document (.refused (.ruleSyntax "/rules/rust/a.yml"))) := by
    decide +kernel
  obtain ⟨hstops, -, -, hends⟩ :=
    unreadable_rules_told_iff before.files (.only .rust) settings.rulesRoot
  have hran := (hends _ _ _ _ _ _ hreaches rfl rfl).1 _ ((hstops _).1 hids)
  have hwords : "" ++ "[tempo-lints] error: invalid YAML in " ++ "/rules/rust/a.yml" ++ "\n" =
      "[tempo-lints] error: invalid YAML in /rules/rust/a.yml\n" := by
    decide
  rw [show ran = _ from hran]
  exact ⟨rfl, hwords⟩

/-- One octet that starts no character and a day that does not exist are not told: no file is
refused, and the command ends with a fault once the engine has run. -/
theorem strayOctet_impossibleDay_untold :
    let ran (octets : List UInt8) := (run quietSurroundings rulesEnvironment
      ["rust", "--json"]).run.run (sessionWithRules octets)
    let ids (octets : List UInt8) :=
      Rules.ids (sessionWithRules octets).files (.only .rust) (.parse "/rules")
    (ids [255] = .error (.text .notUtf8) ∧
      (ran [255]).1 = .error (.scan (.rules (.text .notUtf8))) ∧
      (ran [255]).2.diagnostics = "" ∧ (ran [255]).2.commands.length = 1) ∧
    let day := Text.Utf8.encode "id: 2001-99-99\n"
    ids day = .error (.document (.scalar .badNumber)) ∧
      (ran day).1 = .error (.scan (.rules (.document (.scalar .badNumber)))) ∧
      (ran day).2.diagnostics = "" ∧ (ran day).2.commands.length = 1 := by
  decide +kernel

end CommandLine.Lint

end LintReport
