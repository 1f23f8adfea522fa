import LintReport.Proofs.Json.Blank
import LintReport.Proofs.Session
import LintReport.Scan

/-!
# Delivering a Report

A report is delivered by writing its diagnostics and then its lines. Both are loops over lists
that do nothing but write, so the session after them holds the texts of all elements, in order, and
is otherwise as it was. Only what is added to the file of the workflow step can still fail.

## Main results

* `Scan.deliver_run`: **what is written by a delivery**, whether or not its last step fails.
* `Scan.deliver_run_files`: a delivery changes no file but that of the workflow step.
* `Scan.deliver_run_ok`: a delivery without results for a workflow step succeeds.
* `Scan.report_run_ok`, `Scan.report_run_beyond`: a report is delivered, if there is one.
* `Report.select_eq`: the issues and warnings of an array of matches.
* `Report.select_beyond_iff`: an output is beyond the reader whatever is selected from it.
* `Report.ofResult_eq`: the report of an output that holds issues.
-/

namespace LintReport

/-- The text of some lines, each with a line feed. -/
def textOfLines : List String → String
  | [] => ""
  | line :: rest => line ++ "\n" ++ textOfLines rest

@[simp] theorem textOfLines_singleton (line : String) : textOfLines [line] = line ++ "\n" := by
  rw [textOfLines, textOfLines, String.append_empty]

namespace Session

/-- Lines that are printed one after the other. -/
theorem foldl_print (lines : List String) (s : Session) :
    lines.foldl (fun s line => { s with output := s.output ++ line ++ "\n" }) s =
      { s with output := s.output ++ textOfLines lines } := by
  induction lines generalizing s with
  | nil => rw [List.foldl_nil, textOfLines, String.append_empty]
  | cons line rest ih =>
    rw [List.foldl_cons, ih]
    simp only [textOfLines, String.append_assoc]

/-- Messages that are told one after the other. -/
theorem foldl_tell (inWorkflow : Bool) (messages : List Diagnostic) (s : Session) :
    messages.foldl
        (fun s d => { s with diagnostics := s.diagnostics ++ d.line inWorkflow ++ "\n" }) s =
      { s with diagnostics := s.diagnostics ++
        textOfLines (messages.map (Diagnostic.line inWorkflow)) } := by
  induction messages generalizing s with
  | nil => rw [List.foldl_nil, List.map_nil, textOfLines, String.append_empty]
  | cons d rest ih =>
    rw [List.foldl_cons, ih]
    simp only [List.map_cons, textOfLines, String.append_assoc]

/-- The session after a report has been written. -/
def afterReport (s : Session) (report : Report) (inWorkflow : Bool) : Session :=
  { s with
    output := s.output ++ textOfLines report.output
    diagnostics := s.diagnostics ++
      textOfLines (report.diagnostics.map (Diagnostic.line inWorkflow)) }

end Session

/-! ### Deliveries -/

namespace Scan

/-- A delivery writes the report, and then adds to the file of the workflow step. -/
theorem deliver_run_eq (report : Report) (o : ScanOptions) (settings : Settings) (s : Session) :
    (deliver report o settings).run.run s =
      (do match report.stepOutput, settings.stepOutputFile with
          | some text, some p => addText p text
          | _, _ => pure ()
          return report.code : Run ScanFault Int).run.run
        (s.afterReport report o.inWorkflow) := by
  have htold := run_forIn report.diagnostics
    (fun d => (Run.tell d o.inWorkflow : Run ScanFault Unit)) _ (fun _ _ => rfl) s
  rw [Session.foldl_tell] at htold
  have hprinted (s' : Session) := run_forIn report.output
    (fun line => (Run.print line : Run ScanFault Unit)) _ (fun _ _ => rfl) s'
  rw [deliver, run_bind_ok htold, run_bind_ok (hprinted _), Session.foldl_print]
  rfl

/-- Text that can be added to a file is added, and nothing else changes. -/
theorem addText_run_ok {p : Path} {text : String} {s : Session} {t : FileTree}
    (h : s.files.append p (Text.Utf8.encode text) = .ok t) :
    (addText p text).run.run s = (.ok (), { s with files := t }) := by
  rw [addText, Run.run_files_bind, h]
  rfl

/-- Text that cannot be added to a file changes nothing. -/
theorem addText_run_error {p : Path} {text : String} {s : Session} {kind : FileFault.Kind}
    (h : s.files.append p (Text.Utf8.encode text) = .error kind) :
    (addText p text).run.run s = (.error (.file ⟨kind, p.text⟩), s) := by
  rw [addText, Run.run_files_bind, h]
  rfl

/-- Whether a tree is another one, perhaps after octets have been added to the file of the workflow
step. -/
def AddsStepOutput (settings : Settings) (t t' : FileTree) : Prop :=
  t' = t ∨ ∃ p octets, settings.stepOutputFile = some p ∧ t.append p octets = .ok t'

/-- A delivery writes the report, whether or not its last step fails, and changes no file but that
of the workflow step. -/
theorem deliver_run_files (report : Report) (o : ScanOptions) (settings : Settings) (s : Session) :
    ∃ result t, (deliver report o settings).run.run s =
        (result, { s.afterReport report o.inWorkflow with files := t }) ∧
      AddsStepOutput settings s.files t := by
  rw [deliver_run_eq]
  split
  · next text p _ hp =>
    cases hadd : s.files.append p (Text.Utf8.encode text) with
    | ok t =>
      rw [run_bind_ok (addText_run_ok (s := s.afterReport report o.inWorkflow) hadd)]
      exact ⟨_, t, rfl, .inr ⟨p, _, hp, hadd⟩⟩
    | error kind =>
      rw [run_bind_error (addText_run_error (s := s.afterReport report o.inWorkflow) hadd)]
      exact ⟨_, s.files, rfl, .inl rfl⟩
  · exact ⟨_, s.files, rfl, .inl rfl⟩

/-- **What is written by a delivery**: the diagnostics and the lines of the report, in order,
whether or not its last step fails. -/
theorem deliver_run (report : Report) (o : ScanOptions) (settings : Settings) (s : Session) :
    ∃ result t, (deliver report o settings).run.run s =
      (result, { s.afterReport report o.inWorkflow with files := t }) :=
  let ⟨result, t, h, _⟩ := deliver_run_files report o settings s
  ⟨result, t, h⟩

/-- A delivery without results for a workflow step returns the code of the report. -/
theorem deliver_run_ok {report : Report} (h : report.stepOutput = none) (o : ScanOptions)
    (settings : Settings) (s : Session) :
    (deliver report o settings).run.run s =
      (.ok report.code, s.afterReport report o.inWorkflow) := by
  rw [deliver_run_eq, h]
  rfl

/-- The report of a run of the engine is delivered. -/
theorem report_run_ok {result : Engine.Result} {o : ScanOptions} {allowed : List String}
    {r : Report} (h : Report.ofResult result o allowed = .ok r) (settings : Settings)
    (s : Session) :
    (report result o allowed settings).run.run s = (deliver r o settings).run.run s := by
  rw [report, h]
  rfl

/-- Where an output is beyond the reader, nothing is said, printed or written. -/
theorem report_run_beyond {result : Engine.Result} {o : ScanOptions} {allowed : List String}
    {limit : Json.Limit} (h : Report.ofResult result o allowed = .error limit)
    (settings : Settings) (s : Session) :
    (report result o allowed settings).run.run s = (.error (.output limit), s) := by
  rw [report, h]
  rfl

/-- A report runs no command and changes no file but that of the workflow step. -/
theorem report_run_files (result : Engine.Result) (o : ScanOptions) (allowed : List String)
    (settings : Settings) (s : Session) :
    ∃ ended s', (report result o allowed settings).run.run s = (ended, s') ∧
      s'.commands = s.commands ∧ AddsStepOutput settings s.files s'.files := by
  cases h : Report.ofResult result o allowed with
  | error limit =>
    rw [report_run_beyond h]
    exact ⟨_, s, rfl, rfl, .inl rfl⟩
  | ok r =>
    obtain ⟨ended, t, hrun, hadds⟩ := deliver_run_files r o settings s
    rw [report_run_ok h]
    exact ⟨ended, _, hrun, rfl, hadds⟩

end Scan

/-! ### Reports -/

/-- An output has no issues because it is beyond the reader exactly where its text is. -/
theorem Issue.readOutput_beyond_iff {text : String} {allowed : Option (List String)}
    {limit : Json.Limit} :
    readOutput text allowed = .error (.beyond limit) ↔
      Json.parse text = .error (.beyond limit) := by
  rw [readOutput, ofOutput]
  cases Json.parse text with
  | error fault => cases fault <;> simp [Except.map]
  | ok v => cases hmatches : matches? v <;> simp [Except.map, hmatches]

namespace Report

/-- The issues and warnings of an array of matches: the allowed ones are selected first, and rules
are excluded among those. -/
theorem select_eq {text : String} {items : List Json} (hparse : Json.parse text = .ok (.arr items))
    (hshape : (items.take 5).all Issue.looksLikeMatch = true) (allowed excluded : List String) :
    select text allowed excluded =
      let read := Issue.selectAllowed (if allowed.isEmpty then none else some allowed)
        (items.map Issue.ofMatch)
      let rest := Issue.exclude excluded read.issues
      .ok ⟨rest.issues, read.warnings ++ rest.warnings⟩ := by
  have hread : Issue.ofOutput text = .ok (items.map Issue.ofMatch) := by
    rw [Issue.ofOutput, hparse]
    dsimp only
    rw [Issue.matches?, if_pos hshape]
  rw [select, Issue.readOutput, hread]
  rfl

/-- What a selection is made of: an array of matches. -/
theorem exists_items_of_select {text : String} {allowed excluded : List String} {s : Selection}
    (h : select text allowed excluded = .ok s) :
    ∃ items, Json.parse text = .ok (.arr items) ∧
      (items.take 5).all Issue.looksLikeMatch = true := by
  cases hparse : Json.parse text with
  | error fault =>
    rw [select, Issue.readOutput, Issue.ofOutput, hparse] at h
    cases fault <;> cases h
  | ok v =>
    cases hmatches : Issue.matches? v with
    | none =>
      rw [select, Issue.readOutput, Issue.ofOutput, hparse] at h
      dsimp only at h
      rw [hmatches] at h
      cases h
    | some items =>
      cases v with
      | arr elements =>
        rw [Issue.matches?] at hmatches
        split at hmatches
        · next hshape => exact ⟨elements, rfl, hshape⟩
        · cases hmatches
      | _ => cases hmatches

/-- **The report of an output that holds issues** is the report of the selection. -/
theorem ofResult_eq {result : Engine.Result} {o : ScanOptions} {allowed : List String}
    {s : Selection} (h : select result.output allowed o.excluded = .ok s) :
    ofResult result o allowed = .ok (ofSelection o s) := by
  obtain ⟨items, hparse, -⟩ := exists_items_of_select h
  rw [ofResult, Json.isBlankText_of_parse hparse, if_neg Bool.false_ne_true, h]

/-- **An output is beyond the reader** whatever is selected from it. -/
theorem select_beyond_iff {text : String} {allowed excluded : List String} {limit : Json.Limit} :
    select text allowed excluded = .error (.beyond limit) ↔
      Json.parse text = .error (.beyond limit) := by
  let wanted := if allowed.isEmpty then none else some allowed
  rw [← @Issue.readOutput_beyond_iff text wanted, select]
  change (Issue.readOutput text wanted >>= _) = _ ↔ _
  cases Issue.readOutput text wanted with
  | error fault => simp [bind, Except.bind]
  | ok read => simp [bind, Except.bind, pure, Except.pure]

/-- An output that is beyond the reader has no report. -/
theorem ofResult_beyond {result : Engine.Result} {limit : Json.Limit}
    (h : Json.parse result.output = .error (.beyond limit)) (o : ScanOptions)
    (allowed : List String) : ofResult result o allowed = .error limit := by
  rw [ofResult, Json.isBlankText_of_beyond h, if_neg Bool.false_ne_true, select_beyond_iff.2 h]

end Report

end LintReport
