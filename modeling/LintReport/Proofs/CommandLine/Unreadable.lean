import LintReport.Proofs.CommandLine.Posting
import LintReport.Proofs.Report.Selection

/-!
# Results That Cannot Be Used

A file of results can be unusable in two ways: its octets are no text, or its text is neither blank
nor an array of matches. The command that comments says what is wrong with a text and shows it. For
octets that are no text it has no such answer: the fault of the reader ends the command. Nor has it
one for a text that the reader has no room for, though such a text may well be no JSON.

## Main definitions

* `Issue.HoldsMatches`: texts that are an array of matches.
* `complaint`: what is said about a text that is none.

## Main results

* `Issue.readOutput_ok_iff`: these are the texts that hold issues.
* `loadIssues_of_notUtf8`, `loadIssues_of_refused`: the two ways in which results are unusable.
* `unusable_results_told_iff`: **unusable results are told exactly where they are UTF-8** and not
  beyond the reader.
-/

namespace LintReport

/-! ### Arrays of matches -/

/-- Whether a text is an array of matches: its first five elements are objects with a rule id. -/
def Issue.HoldsMatches (text : String) : Prop :=
  ∃ items, Json.parse text = .ok (.arr items) ∧
    ∀ v ∈ items.take 5, ∃ members, v = .obj members ∧ "ruleId" ∈ members.map (·.1)

/-- **The texts that hold issues** are the arrays of matches. -/
theorem Issue.readOutput_ok_iff {text : String} :
    (∃ found, readOutput text none = .ok found) ↔ HoldsMatches text := by
  constructor
  · rintro ⟨found, hfound⟩
    obtain ⟨selected, hselect⟩ : ∃ selected, Report.select text [] [] = .ok selected := by
      rw [Report.select, List.isEmpty_nil, if_pos rfl, hfound]
      exact ⟨_, rfl⟩
    obtain ⟨items, hparse, hshape⟩ := Report.exists_items_of_select hselect
    rw [List.all_eq_true] at hshape
    exact ⟨items, hparse, fun v hv => Report.exists_members_of_looksLikeMatch (hshape v hv)⟩
  · rintro ⟨items, hparse, hshape⟩
    have hmatches : matches? (.arr items) = some items := by
      rw [matches?, if_pos]
      rw [List.all_eq_true]
      intro v hv
      obtain ⟨members, rfl, hmem⟩ := hshape v hv
      exact Report.looksLikeMatch_of_mem hmem
    rw [readOutput, ofOutput, hparse]
    dsimp only
    rw [hmatches]
    exact ⟨_, rfl⟩

namespace CommandLine.Post

/-! ### The two ways -/

/-- A results file whose octets are no text is refused with that fault. -/
theorem load_run_notUtf8 {p : Path} {s : Session} {octets : List UInt8}
    (hread : s.files.read p = .ok octets) (hdecode : Text.Utf8.decode? octets = none) :
    (Results.load p).run.run s = (.error (.text .notUtf8), s) := by
  have htext : s.files.readText p = .error .notUtf8 := by
    rw [Text.Utf8.decode?, Option.map_eq_none_iff] at hdecode
    rw [FileTree.readText, hread]
    dsimp only
    rw [hdecode]
  rw [Results.load, Run.run_files_bind, FileTree.hasFile_of_read hread, htext]
  rfl

/-- **Octets that are no text** end the reading of results with a fault, and nothing is said. -/
theorem loadIssues_of_notUtf8 {results : String} {s : Session} {octets : List UInt8}
    (hnamed : results ≠ "") (hread : s.files.read (.parse results) = .ok octets)
    (hdecode : Text.Utf8.decode? octets = none) :
    (loadIssues results).run.run s = (.error (.results .notUtf8), s) := by
  rw [loadIssues_of_load hnamed (load_run_notUtf8 hread hdecode)]
  rfl

/-- What is said about a text that is no array of matches. -/
def complaint (results : String) (fault : OutputFault) (text : String) : String :=
  (Diagnostic.error s!"lint output in {Path.parse results}: {fault.message}").line false ++ "\n" ++
    text ++ "\n"

/-- What is said is never nothing. -/
theorem complaint_ne_empty (results : String) (fault : OutputFault) (text : String) :
    complaint results fault text ≠ "" := by
  rw [complaint, ne_eq, String.append_eq_empty_iff]
  exact fun h => absurd h.2 (by decide)

/-- **A text that is no array of matches** is told and shown, and there are no issues. -/
theorem loadIssues_of_refused {results : String} {s : Session} {text : String} {fault : OutputFault}
    (hnamed : results ≠ "") (htext : s.files.readText (.parse results) = .ok text)
    (hblank : Text.isBlankText text = false) (hfault : Issue.readOutput text none = .error fault)
    (hroom : ∀ limit, fault ≠ .beyond limit) :
    (loadIssues results).run.run s = (.ok none,
      { s with diagnostics := s.diagnostics ++ complaint results fault text }) := by
  obtain ⟨octets, hread⟩ := FileTree.exists_read_of_hasFile (hasFile_of_readText htext)
  have hload : (Results.load (.parse results)).run.run s = (.error (.output fault), s) := by
    rw [Results.load_run_text hread htext, Results.ofText, hblank, if_neg Bool.false_ne_true,
      hfault]
    rfl
  rw [loadIssues_of_load hnamed hload]
  have htold : s.diagnostics ++ complaint results fault text = s.diagnostics ++
      (Diagnostic.error s!"lint output in {Path.parse results}: {fault.message}").line false ++
        "\n" ++ text ++ "\n" := by
    simp only [complaint, String.append_assoc]
  have hshown : (s.files.readText (.parse results)).toOption.getD "" = text := by
    rw [htext]
    rfl
  rw [htold, ← hshown]
  cases fault with
  | beyond limit => exact absurd rfl (hroom limit)
  | _ => rfl

/-! ### What the command does -/

/-- **Unusable results are told exactly where they are UTF-8 and not beyond the reader.** Let a
command have settings and a token, and let its results be a file that can be read and that holds, if
it holds a text, one that is neither blank nor an array of matches. Over every link:

* the command ends with one and says something, and does nothing else, exactly where the octets of
  the file are UTF-8 and the reader comes to none of its limits in their text;
* there it says what is wrong with the text and shows it;
* where the reader comes to a limit, the command ends with that limit, and neither says nor sends
  anything;
* where the octets are not UTF-8, it ends with the fault of the reader, and neither says nor sends
  anything. -/
theorem unusable_results_told_iff {σ : Type} (link : Link σ) (a : Arguments) (w : World σ)
    {env : Environment} {settings : Settings} (henv : Settings.ofEnvironment env = .ok settings)
    (htoken : settings.token.isSome = true) (hnamed : a.results ≠ "") {octets : List UInt8}
    (hread : w.1.files.read (.parse a.results) = .ok octets)
    (hunusable : ∀ text, w.1.files.readText (.parse a.results) = .ok text →
      Text.isBlankText text = false ∧ ¬ Issue.HoldsMatches text) :
    let ran := execute link env a w
    let told (words : String) : World σ :=
      ({ w.1 with diagnostics := w.1.diagnostics ++ words }, w.2)
    ((∃ words, words ≠ "" ∧ ran = (.ok (.returned 1), told words)) ↔
      (Text.Utf8.decode? octets).isSome = true ∧
        ∀ limit, ¬ ReadsBeyond w.1.files a.results limit) ∧
    (∀ text, w.1.files.readText (.parse a.results) = .ok text →
      (∀ limit, Json.parse text ≠ .error (.beyond limit)) →
      ∃ fault, Issue.readOutput text none = .error fault ∧
        ran = (.ok (.returned 1), told (complaint a.results fault text))) ∧
    (∀ limit, ReadsBeyond w.1.files a.results limit → ran = (.error (.output limit), w)) ∧
    (Text.Utf8.decode? octets = none → ran = (.error (.results .notUtf8), w)) := by
  intro ran told
  obtain ⟨given, hgiven⟩ := Option.isSome_iff_exists.1 htoken
  obtain ⟨token, haccess⟩ : ∃ token, access env a = .ok (settings, token) := by
    cases hposts : a.printsOnly with
    | true => exact ⟨"", access_of_prints henv hposts⟩
    | false => exact ⟨given, access_of_posts henv hposts hgiven⟩
  have htext (text : String) (htext : w.1.files.readText (.parse a.results) = .ok text)
      (hroom : ∀ limit, Json.parse text ≠ .error (.beyond limit)) :
      ∃ fault, Issue.readOutput text none = .error fault ∧
        ran = (.ok (.returned 1), told (complaint a.results fault text)) := by
    obtain ⟨hblank, hmatches⟩ := hunusable text htext
    cases hfound : Issue.readOutput text none with
    | ok found => exact absurd (Issue.readOutput_ok_iff.1 ⟨found, hfound⟩) hmatches
    | error fault =>
      have hwithin (limit : Json.Limit) : fault ≠ .beyond limit := by
        rintro rfl
        exact hroom limit (Issue.readOutput_beyond_iff.1 hfound)
      exact ⟨fault, rfl,
        execute_unread haccess (loadIssues_of_refused hnamed htext hblank hfound hwithin)⟩
  have hlimit (limit : Json.Limit) (h : ReadsBeyond w.1.files a.results limit) :
      ran = (.error (.output limit), w) :=
    execute_of_fault haccess (loadIssues_of_beyond h)
  have hfault (hdecode : Text.Utf8.decode? octets = none) :
      ran = (.error (.results .notUtf8), w) :=
    execute_of_fault haccess (loadIssues_of_notUtf8 hnamed hread hdecode)
  refine ⟨⟨?_, ?_⟩, htext, hlimit, hfault⟩
  · rintro ⟨words, -, hran⟩
    refine ⟨?_, fun limit h => ?_⟩
    · cases hdecode : Text.Utf8.decode? octets with
      | some content => rfl
      | none => cases (hfault hdecode).symm.trans hran
    · cases (hlimit limit h).symm.trans hran
  · rintro ⟨hutf8, hroom⟩
    obtain ⟨text, hsome⟩ := exists_readText hread hutf8
    obtain ⟨fault, -, hran⟩ := htext text hsome fun limit h => hroom limit ⟨hnamed, text, hsome, h⟩
    exact ⟨complaint a.results fault text, complaint_ne_empty a.results fault text, hran⟩

/-- Results that are an object are told, shown and not posted. -/
theorem objectResults_told :
    let s := sessionWith (Text.Utf8.encode "\x7b\x7d")
    execute ⟨GitHub.carryScript, .float (.zero false)⟩ tokenEnvironment resultsArguments
      (s, { transport := [] }) = (.ok (.returned 1),
        { s with diagnostics := s.diagnostics ++ complaint "r.json" .notMatches "\x7b\x7d" },
        { transport := [] }) := by
  intro s
  have htoken : (Settings.ofEnvironment tokenEnvironment).toOption.map (·.token) =
      some (some "t") := by
    decide +kernel
  have htext : s.files.readText (.parse "r.json") = .ok "\x7b\x7d" := by decide +kernel
  have hrefused : Issue.readOutput "\x7b\x7d" none = .error .notMatches := by decide +kernel
  have hunusable : ∀ text, s.files.readText (.parse "r.json") = .ok text →
      Text.isBlankText text = false ∧ ¬ Issue.HoldsMatches text := by
    intro text h
    obtain rfl : text = "\x7b\x7d" := Except.ok.inj (h.symm.trans htext)
    refine ⟨by decide, fun hmatches => ?_⟩
    obtain ⟨found, hfound⟩ := Issue.readOutput_ok_iff.2 hmatches
    cases hrefused.symm.trans hfound
  cases henv : Settings.ofEnvironment tokenEnvironment with
  | error fault =>
    rw [henv] at htoken
    cases htoken
  | ok settings =>
    rw [henv] at htoken
    have hgiven : settings.token.isSome = true := congrArg Option.isSome (Option.some.inj htoken)
    have hread : s.files.read (.parse "r.json") = .ok (Text.Utf8.encode "\x7b\x7d") := rfl
    obtain ⟨-, htold, -⟩ := unusable_results_told_iff ⟨GitHub.carryScript, .float (.zero false)⟩
      resultsArguments (s, { transport := [] }) henv hgiven (by decide) hread hunusable
    have hroom (limit : Json.Limit) : Json.parse "\x7b\x7d" ≠ .error (.beyond limit) := by
      intro hlimit
      cases hrefused.symm.trans (Issue.readOutput_beyond_iff.2 hlimit)
    obtain ⟨fault, hfault, hran⟩ := htold "\x7b\x7d" htext hroom
    obtain rfl : fault = .notMatches := Except.error.inj (hfault.symm.trans hrefused)
    exact hran

/-- One octet that starts no character is not told: the command ends with the fault of the
reader. -/
theorem strayOctet_untold :
    let ran := execute ⟨GitHub.carryScript, .float (.zero false)⟩ tokenEnvironment resultsArguments
      (sessionWith [255], { transport := [] })
    ran.1 = .error (.results .notUtf8) ∧ ran.2.1.diagnostics = "" ∧ ran.2.2.sent = [] := by
  decide +kernel

end CommandLine.Post

end LintReport
