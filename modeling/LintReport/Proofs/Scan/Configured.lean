import LintReport.Proofs.Engine.Configuration
import LintReport.Proofs.FileTree.Making
import LintReport.Proofs.Report.Delivery
import LintReport.Proofs.Text.Utf8

/-!
# Scans with a Configuration

A scan makes a directory, writes a configuration that reads back as the rule directories of its
selection, runs the engine once, and removes the directory. The directory was not there before, so
removing it leaves the files that were there, on every way out of the scan.

## Main definitions

* `Surroundings.IsFresh`: surroundings with a directory that can still be made.
* `Concludes`: what the result of a scan says about the answer of the engine.

## Main results

* `withConfiguration_run`: **a run with a configuration leaves the files as they were**.
* `run_configured`: **the engine sees a faithful configuration, and nothing is left behind**.
-/

namespace LintReport

namespace Scan

open FileTree (Location Entry)

/-- Surroundings with a directory that can still be made in a tree of files. -/
structure Surroundings.IsFresh (around : Surroundings) (t : FileTree) : Prop where
  tree : t.IsTree
  makes : ∃ t', t.makeDirectory around.scratch = .ok t'

section Configured

variable {around : Surroundings} {t u : FileTree} {dirs : List String} {text : String}

/-! ### The directory of a scan -/

/-- The location of the directory of a scan: nothing is there before, and it leads on to the
configuration unless the path of that is too long. -/
structure Surroundings.PutsAt (around : Surroundings) (t : FileTree) (l : Location) : Prop where
  tree : t.IsTree
  new : t.entry? l = none
  place : t.place around.scratch .directory = t.put l .directory
  scratch : (t.put l .directory).resolve around.scratch = .ok l
  configuration : around.configuration.text.utf8ByteSize < FileTree.pathLimit →
    (t.put l .directory).resolve around.configuration = .ok (l.child Configuration.fileName)
  tooLong : FileTree.pathLimit ≤ around.configuration.text.utf8ByteSize →
    (t.put l .directory).resolve around.configuration = .error .nameTooLong

theorem Surroundings.IsFresh.exists_putsAt (h : around.IsFresh t) : ∃ l, around.PutsAt t l := by
  obtain ⟨t', hmake⟩ := h.makes
  obtain ⟨l, hresolve, hnone, rfl⟩ := FileTree.makeDirectory_eq_ok_iff.1 hmake
  have hl : t.entry? l ≠ some .directory := by
    rw [hnone]
    nofun
  have hscratch := FileTree.resolve_put hl .directory hresolve
  obtain ⟨husable, hwalk⟩ := FileTree.resolve_eq_ok_iff.1 hscratch
  have hnoNull : ∀ name ∈ around.configuration.names, '\x00' ∉ name.toList := by
    intro name hname
    obtain hname | hname := List.mem_append.1 hname
    · exact husable.noNull name hname
    · rw [List.mem_singleton.1 hname]
      decide
  refine ⟨l, h.tree, hnone, FileTree.place_of_makeDirectory h.tree hmake, hscratch,
    fun hshort => ?_, fun hlong => ?_⟩
  · refine FileTree.resolve_eq_ok_iff.2 ⟨⟨hnoNull, hshort⟩, FileTree.walk_concat.2 ⟨l, hwalk, ?_⟩⟩
    have hself := FileTree.entry?_put_self (FileTree.names_ne_nil_of_ne hl) t .directory
    exact FileTree.step_eq_ok_iff.2 ⟨hself, .inr ⟨by decide, by decide, rfl⟩⟩
  · rw [FileTree.resolve, if_neg (by simpa using hnoNull), if_pos hlong]

namespace Surroundings.PutsAt

variable {l : Location} (h : around.PutsAt t l)

include h

/-- The directory goes as it came. -/
theorem remove_place : (t.put l .directory).remove around.scratch = t := by
  rw [FileTree.remove, h.scratch]
  dsimp only
  rw [FileTree.erase_put (Location.isWithin_self l), h.tree.erase_of_none h.new]

/-- **The configuration is in the directory** while that is there, and it goes with it. -/
theorem exists_append (hshort : around.configuration.text.utf8ByteSize < FileTree.pathLimit)
    (octets : List UInt8) :
    ∃ u, (t.put l .directory).append around.configuration octets = .ok u ∧
      u.read around.configuration = .ok octets ∧ u.remove around.scratch = t := by
  have hconfiguration := h.configuration hshort
  have hl : l.names ≠ [] := FileTree.names_ne_nil_of_ne (by rw [h.new]; nofun)
  have hself := FileTree.entry?_put_self hl t .directory
  have hnew : FileTree.entry? (t.put l .directory) (l.child Configuration.fileName) = none := by
    have hchild : l.child Configuration.fileName ≠ l := by
      intro heq
      have := congrArg (fun l => l.names.length) heq
      simp [Location.child] at this
    rw [FileTree.entry?_put_of_ne hchild]
    exact h.tree.entry?_of_none h.new [Configuration.fileName]
  refine ⟨(t.put l .directory).put (l.child Configuration.fileName) (.file octets false), ?_, ?_,
    ?_⟩
  · rw [FileTree.append, FileTree.modify_of_resolve hconfiguration, hnew, Location.parent_child,
      hself]
    rfl
  · rw [FileTree.read_of_resolve (FileTree.resolve_put (by rw [hnew]; nofun) _ hconfiguration),
      FileTree.entry?_put_self (by simp [Location.child])]
  · have hwithin : (l.child Configuration.fileName).isWithin l = true :=
      Location.isWithin_descend l [Configuration.fileName]
    rw [FileTree.remove, FileTree.resolve_put (by rw [hnew]; nofun) _ h.scratch]
    dsimp only
    rw [FileTree.erase_put hwithin, FileTree.erase_put (Location.isWithin_self l),
      h.tree.erase_of_none h.new]

end Surroundings.PutsAt

/-- The directory of a scan is not there before it, nor after it. -/
theorem Surroundings.IsFresh.not_isDirectory (h : around.IsFresh t) {settings : Settings}
    (hadds : AddsStepOutput settings t u) : u.isDirectory around.scratch = false := by
  obtain ⟨t', hmake⟩ := h.makes
  obtain ⟨l, hresolve, hnone, -⟩ := FileTree.makeDirectory_eq_ok_iff.1 hmake
  have hbefore : t.isDirectory around.scratch = false := by
    rw [FileTree.isDirectory, FileTree.stat, hresolve]
    dsimp only [bind, Except.bind]
    rw [hnone]
  obtain rfl | ⟨p, octets, -, happend⟩ := hadds
  · exact hbefore
  · obtain ⟨l, old, executable, -, -, rfl⟩ := FileTree.exists_put_of_modify happend
    rw [Bool.eq_false_iff] at hbefore ⊢
    exact mt (FileTree.isDirectory_mono fun _ => FileTree.directory_of_put_file) hbefore

/-! ### Runs with a configuration -/

/-- What is done while the directory is there: the configuration is written and used. -/
def configureAndUse {α : Type} (around : Surroundings) (dirs : List String)
    (use : Run ScanFault α) : Run ScanFault α := do
  let text ← Run.ofExcept ((Configuration.generate dirs).mapError ScanFault.configuration)
  addText around.configuration text
  use

/-- A run with a configuration makes the directory, uses it and removes it. -/
theorem withConfiguration_run_eq {α : Type} {s s' : Session} {use : Run ScanFault α}
    {result : Except ScanFault α}
    (h : (configureAndUse around dirs use).run.run
      { s with files := s.files.place around.scratch .directory } = (result, s')) :
    (withConfiguration around dirs use).run.run s =
      (result, { s' with files := s'.files.remove around.scratch }) := by
  rw [withConfiguration, Run.run_files_bind]
  exact run_tryFinally h rfl

/-- Directories that are refused leave everything as it was. -/
theorem withConfiguration_refused {α : Type} {s : Session} (h : around.IsFresh s.files)
    {fault : ReadFault} (hgenerate : Configuration.generate dirs = .error fault)
    (use : Run ScanFault α) :
    (withConfiguration around dirs use).run.run s = (.error (.configuration fault), s) := by
  obtain ⟨l, hputs⟩ := h.exists_putsAt
  have hused (s : Session) : (configureAndUse around dirs use).run.run s =
      (.error (.configuration fault), s) := by
    rw [configureAndUse, hgenerate]
    rfl
  rw [withConfiguration_run_eq (hused _)]
  dsimp only
  rw [hputs.place, hputs.remove_place]

/-- Directories that are accepted are written before the configuration is used. -/
theorem configureAndUse_of_generate {α : Type} (hgenerate : Configuration.generate dirs = .ok text)
    (use : Run ScanFault α) :
    configureAndUse around dirs use = (do addText around.configuration text; use) := by
  rw [configureAndUse, hgenerate]
  rfl

/-- A configuration that cannot be written leaves everything as it was. -/
theorem withConfiguration_tooLong {α : Type} {s : Session} (h : around.IsFresh s.files)
    (hgenerate : Configuration.generate dirs = .ok text)
    (hlong : FileTree.pathLimit ≤ around.configuration.text.utf8ByteSize)
    (use : Run ScanFault α) :
    (withConfiguration around dirs use).run.run s =
      (.error (.file ⟨.nameTooLong, around.configuration.text⟩), s) := by
  obtain ⟨l, hputs⟩ := h.exists_putsAt
  have happend : (s.files.place around.scratch .directory).append around.configuration
      (Text.Utf8.encode text) = .error .nameTooLong := by
    rw [hputs.place, FileTree.append, FileTree.modify, hputs.tooLong hlong]
    rfl
  have hused := run_bind_error (f := fun _ => use)
    (addText_run_error (s := { s with files := s.files.place around.scratch .directory }) happend)
  rw [withConfiguration_run_eq (by rw [configureAndUse_of_generate hgenerate]; exact hused)]
  dsimp only
  rw [hputs.place, hputs.remove_place]

/-- **A run with a configuration leaves the files as they were**, if it changes none itself. While
it runs, the configuration is there. -/
theorem withConfiguration_run {α : Type} {s : Session} (h : around.IsFresh s.files)
    (hgenerate : Configuration.generate dirs = .ok text)
    (hshort : around.configuration.text.utf8ByteSize < FileTree.pathLimit)
    (use : Run ScanFault α) :
    ∃ inside, FileTree.read inside around.configuration = .ok (Text.Utf8.encode text) ∧
      ∀ result s', use.run.run { s with files := inside } = (result, s') → s'.files = inside →
        (withConfiguration around dirs use).run.run s =
          (result, { s' with files := s.files }) := by
  obtain ⟨l, hputs⟩ := h.exists_putsAt
  obtain ⟨inside, happend, hread, hremove⟩ :=
    hputs.exists_append hshort (Text.Utf8.encode text)
  rw [← hputs.place] at happend
  refine ⟨inside, hread, fun result s' huse hkeeps => ?_⟩
  have hused := run_bind_ok (f := fun _ => use)
    (addText_run_ok (s := { s with files := s.files.place around.scratch .directory }) happend)
  rw [withConfiguration_run_eq (by
    rw [configureAndUse_of_generate hgenerate]
    exact hused.trans huse)]
  rw [hkeeps, hremove]

end Configured

/-! ### Scans -/

section Scans

variable {around : Surroundings} {selector : LanguageSelector} {language path : String}
  {o : ScanOptions} {settings : Settings} {s : Session}

/-- The engine is run once, and its answer is kept. -/
theorem runEngine_run (command : List String) (keepsOutput : Bool) (s : Session) :
    (runEngine around command keepsOutput).run.run s =
      ((around.runner s.files command keepsOutput).mapError ScanFault.engine,
        { s with commands := s.commands ++ [⟨command, keepsOutput, s.files⟩] }) := by
  rw [runEngine, Run.run_files_bind]
  cases hran : around.runner s.files command keepsOutput <;> rfl

/-- What the result of a scan says about the answer of the engine: a launch that failed, the signal
that came, or the engine's own code where its output is not read. -/
def Concludes (o : ScanOptions) (answer : Except ScanFault Engine.Result)
    (result : Except ScanFault Int) : Prop :=
  match answer with
  | .error (.engine (.launch _)) => result = .ok 1
  | .error (.engine (.interrupted signal)) => result = .ok (128 + signal)
  | .error fault => result = .error fault
  | .ok ran => o.readsIssues = false → result = .ok ran.code

/-- What a scan does with the answer of the engine. -/
def conclude (selector : LanguageSelector) (o : ScanOptions) (settings : Settings) :
    Except ScanFault Engine.Result → Run ScanFault Int
  | .error (.engine (.launch message)) => do
    Run.tell (.error message) o.inWorkflow
    Run.note installHint
    return 1
  | .error (.engine (.interrupted signal)) => return 128 + signal
  | .error fault => throw fault
  | .ok result => do
    if o.readsIssues then
      let allowed ← Run.ofExcept
        ((Rules.ids (← Run.files) selector settings.rulesRoot).mapError ScanFault.rules)
      report result o allowed settings
    else return result.code

/-- What is done with the answer of the engine runs no command, and it changes no file but that of
the workflow step. -/
theorem conclude_run (answer : Except ScanFault Engine.Result) (s : Session) :
    ∃ result s', (conclude selector o settings answer).run.run s = (result, s') ∧
      s'.commands = s.commands ∧ AddsStepOutput settings s.files s'.files ∧
      Concludes o answer result := by
  cases answer with
  | error fault =>
    cases fault with
    | engine fault =>
      cases fault with
      | launch message => exact ⟨.ok 1, _, rfl, rfl, .inl rfl, rfl⟩
      | interrupted signal => exact ⟨_, _, rfl, rfl, .inl rfl, rfl⟩
      | _ => exact ⟨_, _, rfl, rfl, .inl rfl, rfl⟩
    | _ => exact ⟨_, _, rfl, rfl, .inl rfl, rfl⟩
  | ok ran =>
    rw [conclude]
    cases hreads : o.readsIssues with
    | false => exact ⟨.ok ran.code, s, rfl, rfl, .inl rfl, fun _ => rfl⟩
    | true =>
      rw [if_pos rfl, Run.run_files_bind]
      cases hids : Rules.ids s.files selector settings.rulesRoot with
      | error fault =>
        refine ⟨.error (.rules fault), s, rfl, rfl, .inl rfl, fun hshown => ?_⟩
        rw [hreads] at hshown
        cases hshown
      | ok allowed =>
        obtain ⟨result, s', hrun, hcommands, hadds⟩ :=
          report_run_files ran o allowed settings s
        refine ⟨result, s', hrun, hcommands, hadds, fun hshown => ?_⟩
        rw [hreads] at hshown
        cases hshown

/-- A scan gets an answer from the engine, after a warning that runs no command and changes no file,
and goes on with it. -/
theorem run_eq (hvalid : LanguageSelector.ofText? language = some selector) (path : String)
    (s : Session) :
    ∃ diagnostics, (run around language path o settings).run.run s =
      let ran := (engineResult around selector path o settings).run.run
        { s with diagnostics := diagnostics }
      (conclude selector o settings ran.1).run.run ran.2 := by
  rw [run, hvalid]
  dsimp only
  generalize engineResult around selector path o settings = engine
  have hconclude (s : Session) : (engine.attempt >>= conclude selector o settings).run.run s =
      (conclude selector o settings (engine.run.run s).1).run.run (engine.run.run s).2 :=
    run_bind_ok (Run.run_attempt engine s)
  split
  · exact ⟨_, hconclude _⟩
  · exact ⟨s.diagnostics, hconclude s⟩

/-- **The engine sees a faithful configuration, and nothing is left behind.** A scan runs the engine
once, with a file that lists the rule directories of its selection, in order; it does not run the
engine if these are refused or that file cannot be written. However it ends, its directory is gone,
and no file has changed but that of the workflow step. -/
theorem run_configured (around : Surroundings) {language : String} {selector : LanguageSelector}
    (hvalid : LanguageSelector.ofText? language = some selector) (path : String) (o : ScanOptions)
    (settings : Settings) (s : Session) (hfresh : around.IsFresh s.files) :
    let dirs := (selector.ruleDirs settings.rulesRoot).map Path.text
    let command := Engine.resolve settings.engine around.installed ::
      (["scan", "--config", around.configuration.text] ++
        (if o.json || o.inWorkflow then ["--json"] else []) ++
        (if o.fix then ["--update-all"] else []) ++ [path])
    ∃ result s', (run around language path o settings).run.run s = (result, s') ∧
      s'.files.isDirectory around.scratch = false ∧
      AddsStepOutput settings s.files s'.files ∧
      (∀ fault, Configuration.generate dirs = .error fault →
        result = .error (.configuration fault) ∧ s'.commands = s.commands) ∧
      (∀ text, Configuration.generate dirs = .ok text →
        FileTree.pathLimit ≤ around.configuration.text.utf8ByteSize →
        result = .error (.file ⟨.nameTooLong, around.configuration.text⟩) ∧
          s'.commands = s.commands) ∧
      (∀ text, Configuration.generate dirs = .ok text →
        around.configuration.text.utf8ByteSize < FileTree.pathLimit →
        Configuration.read text = .ok dirs ∧
        ∃ inside, FileTree.read inside around.configuration = .ok (Text.Utf8.encode text) ∧
          s'.commands = s.commands ++ [⟨command, o.readsIssues, inside⟩] ∧
          Concludes o ((around.runner inside command o.readsIssues).mapError ScanFault.engine)
            result) := by
  intro dirs command
  obtain ⟨diagnostics, hrun⟩ := @run_eq around selector language o settings hvalid path s
  have hengine : engineResult around selector path o settings =
      withConfiguration around dirs (runEngine around command o.readsIssues) := rfl
  rw [hengine] at hrun
  clear_value dirs command
  -- the three ways to an answer share what comes after it
  have hfinish (answer : Except ScanFault Engine.Result) (after : Session)
      (hanswer : (withConfiguration around dirs (runEngine around command o.readsIssues)).run.run
        { s with diagnostics := diagnostics } = (answer, after))
      (hfiles : after.files = s.files) :
      ∃ result s', (run around language path o settings).run.run s = (result, s') ∧
        s'.files.isDirectory around.scratch = false ∧ AddsStepOutput settings s.files s'.files ∧
        s'.commands = after.commands ∧ Concludes o answer result := by
    obtain ⟨result, s', hconclude, hcommands, hadds, hconcludes⟩ :=
      @conclude_run selector o settings answer after
    rw [hfiles] at hadds
    refine ⟨result, s', ?_, hfresh.not_isDirectory hadds, hadds, hcommands, hconcludes⟩
    rw [hrun, hanswer]
    exact hconclude
  cases hgenerate : Configuration.generate dirs with
  | error fault =>
    have hanswer := withConfiguration_refused
      (s := { s with diagnostics := diagnostics }) hfresh hgenerate
      (runEngine around command o.readsIssues)
    obtain ⟨result, s', hran, hgone, hadds, hcommands, hconcludes⟩ := hfinish _ _ hanswer rfl
    refine ⟨result, s', hran, hgone, hadds, ?_, nofun, nofun⟩
    intro fault' hfault
    rw [← Except.error.inj hfault]
    exact ⟨hconcludes, hcommands⟩
  | ok text =>
    by_cases hshort : around.configuration.text.utf8ByteSize < FileTree.pathLimit
    · obtain ⟨inside, hread, hanswer⟩ := withConfiguration_run
        (s := { s with diagnostics := diagnostics }) hfresh hgenerate hshort
        (runEngine around command o.readsIssues)
      obtain ⟨result, s', hran, hgone, hadds, hcommands, hconcludes⟩ :=
        hfinish _ _ (hanswer _ _ (runEngine_run command o.readsIssues _) rfl) rfl
      refine ⟨result, s', hran, hgone, hadds, nofun, fun _ _ hlong => ?_, fun text' htext _ => ?_⟩
      · exact absurd hshort (Nat.not_lt.2 hlong)
      · rw [← Except.ok.inj htext]
        exact ⟨(Configuration.of_generate hgenerate).2, inside, hread, hcommands, hconcludes⟩
    · have hlong := Nat.not_lt.1 hshort
      have hanswer := withConfiguration_tooLong
        (s := { s with diagnostics := diagnostics }) hfresh hgenerate hlong
        (runEngine around command o.readsIssues)
      obtain ⟨result, s', hran, hgone, hadds, hcommands, hconcludes⟩ := hfinish _ _ hanswer rfl
      exact ⟨result, s', hran, hgone, hadds, nofun, fun _ _ _ => ⟨hconcludes, hcommands⟩,
        fun _ _ hshort' => absurd hshort' hshort⟩

end Scans

/-- Surroundings in which `echo` is the only program, and the directory is made in `/tmp`. -/
def echoSurroundings : Surroundings where
  runner _ command _ :=
    if command.head? == some "echo" then .ok ⟨0, ""⟩
    else .error (.launch (Engine.launchMessage ⟨.notFound, command.headD ""⟩))
  installed _ := none
  scratch := ⟨.top, ["tmp", "tempo-lints-a"]⟩

/-- Settings under which the engine shows its arguments. -/
def echoSettings : Settings where
  rulesRoot := ⟨.top, ["rules"]⟩
  engine := some "echo"

/-- Files among which there is a directory `/tmp`. -/
def sharedSession : Session where
  files := ⟨[(⟨.top, ["tmp"]⟩, .directory)]⟩

/-- A scan that is shown by the engine itself runs one command, with a file for both rule
directories, and ends with the code of the engine. -/
theorem echoSurroundings_configured :
    let ran := (run echoSurroundings "rust" "src" { fix := true } echoSettings).run.run
      sharedSession
    ran.1 = .ok 0 ∧ ran.2.files.isDirectory echoSurroundings.scratch = false ∧
    ∃ text inside, Configuration.read text = .ok ["/rules/shared/rust", "/rules/rust"] ∧
      FileTree.read inside echoSurroundings.configuration = .ok (Text.Utf8.encode text) ∧
      ran.2.commands = [⟨["echo", "scan", "--config", "/tmp/tempo-lints-a/sgconfig.yml",
        "--update-all", "src"], false, inside⟩] := by
  intro ran
  have hfresh : echoSurroundings.IsFresh sharedSession.files :=
    ⟨.of_entries (by decide) (by decide), _, rfl⟩
  have hgenerate : Configuration.generate ["/rules/shared/rust", "/rules/rust"] =
      .ok "ruleDirs:\n  - /rules/shared/rust\n  - /rules/rust\n" := by
    decide +kernel
  have hvalid : LanguageSelector.ofText? "rust" = some (.only .rust) := by decide
  obtain ⟨result, s', hran, hgone, -, -, -, hreaches⟩ :=
    run_configured echoSurroundings hvalid "src" { fix := true } echoSettings sharedSession hfresh
  obtain ⟨hread, inside, hinside, hcommands, hconcludes⟩ := hreaches _ hgenerate (by decide)
  have hresult : result = .ok 0 := hconcludes rfl
  rw [show ran = (result, s') from hran]
  exact ⟨hresult, hgone, _, inside, hread, hinside, hcommands⟩

end Scan

end LintReport
