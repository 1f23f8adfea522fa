import LintReport.CommandLine.Post
import LintReport.Proofs.GitHub.Upserting
import LintReport.Proofs.Json.Halves
import LintReport.Proofs.Report.ReadBack
import LintReport.Proofs.Text.Blank

/-!
# Posting after Good Inputs

The command that comments reads its settings, its token and its results before it says anything to
the code host. Each of these may end the command, and then nothing has been sent. What is sent after
them is what an upsert sends, and the exit code tells whether the comment is there.

There is no exit code where the reader of JSON comes to one of its limits, be it in the results or
in a reply of the code host: such a command ends with a fault, and nothing is said about it.

## Main definitions

* `Reads`: what the results that a command is told of amount to.
* `ReadsBeyond`: results that the reader has no room for.
* `LacksToken`: an environment without a token.
* `access`: the settings of a command and its token.
* `answer`: what is done about results that have been read.
* `Refused`: inputs with which a command sends nothing.
* `clientFor`, `exitFor`: the client of a command, and how it ends for what became of a comment.

## Main results

* `loadIssues_of_load`: results are read first, and then something is done about them.
* `loadIssues_run`: results whose file is UTF-8 are read, or are beyond the reader.
* `execute_of_refused`, `execute_of_beyond`, `execute_prints`, `execute_upserts`: the ways of a
  command.
* `posts_after_good_inputs`: **nothing is sent unless all inputs are good**, and the exit code says
  whether the comment was written, unless the reader has come to a limit.
-/

namespace LintReport.CommandLine.Post

/-! ### Results -/

/-- What the results that a command is told of amount to: issues, or nothing where they are
refused. -/
inductive Reads (t : FileTree) (results : String) : Option (List Issue) → Prop
  /-- No results are named. -/
  | unnamed : results = "" → Reads t results (some [])
  /-- There is no file of that name. -/
  | missing : results ≠ "" → t.hasFile (.parse results) = .ok false → Reads t results (some [])
  /-- The file is blank. -/
  | blank {text : String} : results ≠ "" → t.readText (.parse results) = .ok text →
    Text.isBlankText text = true → Reads t results (some [])
  /-- The file holds issues. -/
  | issues {text : String} {found : Selection} : results ≠ "" →
    t.readText (.parse results) = .ok text → Text.isBlankText text = false →
    Issue.readOutput text none = .ok found → Reads t results (some found.issues)
  /-- The file is neither blank nor holds issues, and it is not beyond the reader. -/
  | refused {text : String} {fault : OutputFault} : results ≠ "" →
    t.readText (.parse results) = .ok text → Text.isBlankText text = false →
    Issue.readOutput text none = .error fault → (∀ limit, fault ≠ .beyond limit) →
    Reads t results none
  /-- The name is one that the file system does not look up. -/
  | unsearchable {fault : FileFault} : results ≠ "" →
    t.hasFile (.parse results) = .error fault → Reads t results none

/-- Whether the results that a command is told of are beyond a limit of the reader. -/
def ReadsBeyond (t : FileTree) (results : String) (limit : Json.Limit) : Prop :=
  results ≠ "" ∧ ∃ text, t.readText (.parse results) = .ok text ∧
    Json.parse text = .error (.beyond limit)

/-- What has a text is a file. -/
theorem hasFile_of_readText {t : FileTree} {p : Path} {text : String}
    (h : t.readText p = .ok text) : t.hasFile p = .ok true := by
  cases hread : t.read p with
  | error kind =>
    rw [FileTree.readText, hread] at h
    cases h
  | ok octets => exact FileTree.hasFile_of_read hread

/-- Results do not amount to two things. -/
theorem Reads.unique {t : FileTree} {results : String} {x y : Option (List Issue)}
    (hx : Reads t results x) (hy : Reads t results y) : x = y := by
  have htext {text : String} (h : t.readText (.parse results) = .ok text) :=
    hasFile_of_readText h
  cases hx <;> cases hy <;> simp_all

/-- Results that are beyond the reader amount to nothing else. -/
theorem ReadsBeyond.not_reads {t : FileTree} {results : String} {limit : Json.Limit}
    (h : ReadsBeyond t results limit) (x : Option (List Issue)) : ¬ Reads t results x := by
  obtain ⟨hnamed, text, htext, hlimit⟩ := h
  have hblank := Json.isBlankText_of_beyond hlimit
  have hbeyond : Issue.readOutput text none = .error (.beyond limit) :=
    Issue.readOutput_beyond_iff.2 hlimit
  have hfile := hasFile_of_readText htext
  intro hreads
  cases hreads with
  | @refused text' fault _ htext' _ hfault hwithin =>
    obtain rfl : text = text' := Except.ok.inj (htext.symm.trans htext')
    exact hwithin limit (Except.error.inj (hfault.symm.trans hbeyond))
  | _ => simp_all

/-- A file of UTF-8 has a text. -/
theorem exists_readText {t : FileTree} {p : Path} {octets : List UInt8}
    (hread : t.read p = .ok octets) (hutf8 : (Text.Utf8.decode? octets).isSome = true) :
    ∃ text, t.readText p = .ok text := by
  rw [FileTree.readText, hread]
  rw [Text.Utf8.decode?, Option.isSome_map] at hutf8
  obtain ⟨cs, hcs⟩ := Option.isSome_iff_exists.1 hutf8
  dsimp only
  rw [hcs]
  exact ⟨_, rfl⟩

/-- A name that is not looked up is the fault of a results file. -/
theorem load_run_unsearchable {p : Path} {s : Session} {fault : FileFault}
    (hfile : s.files.hasFile p = .error fault) :
    (Results.load p).run.run s = (.error (.text (.file fault)), s) := by
  rw [Results.load, Run.run_files_bind, hfile]
  rfl

/-- Where there is no results file, there are no issues. -/
theorem load_run_missing {p : Path} {s : Session} (hfile : s.files.hasFile p = .ok false) :
    ∃ s', (Results.load p).run.run s = (.ok [], s') := by
  rw [Results.load, Run.run_files_bind, hfile]
  exact ⟨_, rfl⟩

/-- What is done about results that have been read: issues are handed on, and a fault is told where
it is one of the file or of its text. -/
def answer (results : String) : Except ResultsFault (List Issue) → Run Fault (Option (List Issue))
  | .ok issues => return some issues
  | .error (.text (.file fault)) => do
    Run.tell (.error s!"failed to read lint output file {Path.parse results}: {fault.message}")
    return none
  | .error (.text .notUtf8) => throw (.results .notUtf8)
  | .error (.output (.beyond limit)) => throw (.output limit)
  | .error (.output fault) => do
    Run.tell (.error s!"lint output in {Path.parse results}: {fault.message}")
    Run.note (((← Run.files).readText (.parse results)).toOption.getD "")
    return none

/-- Results that are named are read, and then something is done about them. -/
theorem loadIssues_of_load {results : String} (hnamed : results ≠ "") {s s' : Session}
    {r : Except ResultsFault (List Issue)}
    (hload : (Results.load (.parse results)).run.run s = (r, s')) :
    (loadIssues results).run.run s = (answer results r).run.run s' := by
  have hempty : results.isEmpty = false := by simpa using hnamed
  -- every ending of the reader becomes a value, which is then looked at
  have hattempt : (Run.attempt (Results.load (.parse results)) : Run Fault _).run.run s =
      (.ok r, s') := by
    rw [Run.run_attempt, hload]
  rw [loadIssues, hempty, if_neg Bool.false_ne_true]
  dsimp only
  rw [run_bind_ok hattempt]
  cases r with
  | ok issues => rfl
  | error fault =>
    cases fault with
    | text fault => cases fault <;> rfl
    | output fault => cases fault <;> rfl

/-- **Results are read without a fault** where their file, if there is one, is UTF-8, unless they
are beyond the reader. -/
theorem loadIssues_run (results : String) (s : Session)
    (hutf8 : ∀ octets, s.files.read (.parse results) = .ok octets →
      (Text.Utf8.decode? octets).isSome = true)
    (hroom : ∀ limit, ¬ ReadsBeyond s.files results limit) :
    ∃ (loaded : Option (List Issue)) (s' : Session), Reads s.files results loaded ∧
      (loadIssues results).run.run s = (.ok loaded, s') := by
  by_cases hnamed : results = ""
  · subst hnamed
    exact ⟨some [], s, .unnamed rfl, rfl⟩
  cases hfile : s.files.hasFile (.parse results) with
  | error fault =>
    rw [loadIssues_of_load hnamed (load_run_unsearchable hfile)]
    exact ⟨none, _, .unsearchable hnamed hfile, rfl⟩
  | ok there =>
    cases there with
    | false =>
      obtain ⟨s', hrun⟩ := load_run_missing hfile
      rw [loadIssues_of_load hnamed hrun]
      exact ⟨some [], s', .missing hnamed hfile, rfl⟩
    | true =>
      obtain ⟨octets, hread⟩ := FileTree.exists_read_of_hasFile hfile
      obtain ⟨text, htext⟩ := exists_readText hread (hutf8 octets hread)
      rw [loadIssues_of_load hnamed (Results.load_run_text hread htext), Results.ofText]
      cases hblank : Text.isBlankText text with
      | true => exact ⟨some [], s, .blank hnamed htext hblank, rfl⟩
      | false =>
        rw [if_neg Bool.false_ne_true]
        cases hfound : Issue.readOutput text none with
        | ok found => exact ⟨some found.issues, s, .issues hnamed htext hblank hfound, rfl⟩
        | error fault =>
          have hwithin (limit : Json.Limit) : fault ≠ .beyond limit := by
            rintro rfl
            exact hroom limit ⟨hnamed, text, htext, Issue.readOutput_beyond_iff.1 hfound⟩
          have hrefused := Reads.refused hnamed htext hblank hfound hwithin
          cases fault with
          | beyond limit => exact absurd rfl (hwithin limit)
          | _ => exact ⟨none, _, hrefused, rfl⟩

/-- **Results that are beyond the reader** end the reading of results with that limit, and nothing
is said. -/
theorem loadIssues_of_beyond {results : String} {s : Session} {limit : Json.Limit}
    (h : ReadsBeyond s.files results limit) :
    (loadIssues results).run.run s = (.error (.output limit), s) := by
  obtain ⟨hnamed, text, htext, hlimit⟩ := h
  obtain ⟨octets, hread⟩ := FileTree.exists_read_of_hasFile (hasFile_of_readText htext)
  have hload : (Results.load (.parse results)).run.run s =
      (.error (.output (.beyond limit)), s) := by
    rw [Results.load_run_text hread htext, Results.ofText, Json.isBlankText_of_beyond hlimit,
      if_neg Bool.false_ne_true, Issue.readOutput_beyond_iff.2 hlimit]
    rfl
  rw [loadIssues_of_load hnamed hload]
  rfl

/-! ### The token -/

/-- Whether an environment has no token: it is missing or blank. -/
def LacksToken (env : Environment) : Prop :=
  ∀ text, env.get? "GITHUB_TOKEN" = some text → Text.isBlankText text = true

/-- A variable counts as not set where it is missing or blank. -/
theorem value?_eq_none_iff (env : Environment) (name : String) :
    Settings.value? env name = none ↔
      ∀ text, env.get? name = some text → Text.isBlankText text = true := by
  rw [Settings.value?, Environment.nonEmpty]
  cases env.get? name with
  | none => simp
  | some text =>
    have htrim : (Text.trim text).isEmpty = Text.isBlankText text := by
      rw [Bool.eq_iff_iff, Text.trim, String.isEmpty_iff, String.ofList_eq_empty_iff,
        Text.trimChars_eq_nil_iff, Text.isBlankText, List.all_eq_true]
    simp [Option.filter, htrim]

/-- The settings have no token where the environment lacks one. -/
theorem token_eq_none_iff {env : Environment} {settings : Settings}
    (h : Settings.ofEnvironment env = .ok settings) : settings.token = none ↔ LacksToken env := by
  rw [LacksToken, ← value?_eq_none_iff]
  rw [Settings.ofEnvironment] at h
  cases htimeout : Settings.positive? env "TEMPO_LINTS_HTTP_TIMEOUT" with
  | error fault =>
    rw [htimeout] at h
    cases h
  | ok timeout =>
    rw [htimeout] at h
    obtain rfl := Except.ok.inj h
    rfl

/-- The settings of a command and its token, which is not needed where the comment is only
printed. -/
def access (env : Environment) (a : Arguments) : Except ConfigurationFault (Settings × String) := do
  let settings ← Settings.ofEnvironment env
  return (settings, ← if a.printsOnly then .ok "" else settings.requireToken)

/-- A command that only prints needs settings and no token. -/
theorem access_of_prints {env : Environment} {a : Arguments} {settings : Settings}
    (henv : Settings.ofEnvironment env = .ok settings) (hprints : a.printsOnly = true) :
    access env a = .ok (settings, "") := by
  rw [access, henv, hprints]
  rfl

/-- A command that posts has the token of its settings. -/
theorem access_of_posts {env : Environment} {a : Arguments} {settings : Settings} {token : String}
    (henv : Settings.ofEnvironment env = .ok settings) (hposts : a.printsOnly = false)
    (htoken : settings.token = some token) : access env a = .ok (settings, token) := by
  rw [access, henv, hposts]
  dsimp only [bind, Except.bind]
  rw [if_neg Bool.false_ne_true, Settings.requireToken, htoken]
  rfl

/-! ### Inputs -/

/-- Whether the inputs of a command are refused: its settings, the missing token of a comment that
is to be posted, or its results. -/
def Refused (t : FileTree) (env : Environment) (a : Arguments) : Prop :=
  (∃ fault, Settings.ofEnvironment env = .error fault) ∨
    (a.printsOnly = false ∧ LacksToken env) ∨ Reads t a.results none

/-- Inputs that are not refused are settings, a token where one is needed, and issues. -/
theorem exists_of_not_refused {t : FileTree} {env : Environment} {a : Arguments}
    (h : ¬ Refused t env a) :
    ∃ settings token, Settings.ofEnvironment env = .ok settings ∧
      access env a = .ok (settings, token) ∧
      (a.printsOnly = false → settings.token = some token) := by
  cases henv : Settings.ofEnvironment env with
  | error fault => exact absurd (.inl ⟨fault, henv⟩) h
  | ok settings =>
    cases hposts : a.printsOnly with
    | true => exact ⟨settings, "", rfl, access_of_prints henv hposts, nofun⟩
    | false =>
      cases htoken : settings.token with
      | none => exact absurd (.inr (.inl ⟨hposts, (token_eq_none_iff henv).1 htoken⟩)) h
      | some token =>
        exact ⟨settings, token, rfl, access_of_posts henv hposts htoken, fun _ => htoken⟩

/-! ### The ways of a command -/

section Ways

variable {σ : Type} {link : Link σ} {env : Environment} {a : Arguments} {w : World σ}
  {settings : Settings} {token : String} {s : Session}

/-- Without settings or without the token that it needs, a command ends with one. -/
theorem execute_of_noAccess {fault : ConfigurationFault} (haccess : access env a = .error fault) :
    (execute link env a w).1 = .ok (.returned 1) ∧ (execute link env a w).2.2 = w.2 := by
  rw [access] at haccess
  rw [execute, prepare]
  dsimp only
  rw [haccess]
  exact ⟨rfl, rfl⟩

/-- With settings and a token, a command goes on with its results. -/
theorem prepare_run {loaded : Option (List Issue)} {before : Session}
    (haccess : access env a = .ok (settings, token))
    (hload : (loadIssues a.results).run.run before = (.ok loaded, s)) :
    (prepare env a).run.run before = (do
      match loaded with
      | none => return .inl (.returned 1)
      | some issues =>
        let body := commentBody env a issues
        if a.printsOnly then
          Run.print body
          return .inl (.returned 0)
        else
          return .inr {
            pullRequest := ⟨a.repo, a.number⟩, body := body, token := token
            apiUrl := settings.apiUrl, timeout := settings.timeout } :
        Run Fault (Ending ⊕ Posting)).run.run s := by
  rw [access] at haccess
  rw [prepare]
  dsimp only
  rw [haccess]
  exact run_bind_ok hload

/-- **A command whose results are refused** ends with one, and has said what was said in reading
them. -/
theorem execute_unread (haccess : access env a = .ok (settings, token))
    (hload : (loadIssues a.results).run.run w.1 = (.ok none, s)) :
    execute link env a w = (.ok (.returned 1), s, w.2) := by
  rw [execute, prepare_run haccess hload]
  rfl

/-- A command that cannot read its results ends with that fault. -/
theorem execute_of_fault {fault : Fault} (haccess : access env a = .ok (settings, token))
    (hload : (loadIssues a.results).run.run w.1 = (.error fault, s)) :
    execute link env a w = (.error fault, s, w.2) := by
  have hprepare : (prepare env a).run.run w.1 = (.error fault, s) := by
    rw [access] at haccess
    rw [prepare]
    dsimp only
    rw [haccess]
    exact run_bind_error hload
  rw [execute, hprepare]

/-- A command whose results are refused ends with one. -/
theorem execute_of_unread (haccess : access env a = .ok (settings, token))
    (hload : (loadIssues a.results).run.run w.1 = (.ok none, s)) :
    (execute link env a w).1 = .ok (.returned 1) ∧ (execute link env a w).2.2 = w.2 := by
  rw [execute_unread haccess hload]
  exact ⟨rfl, rfl⟩

/-- **A command that only prints** adds the comment to the output and ends with zero. -/
theorem execute_prints {issues : List Issue} (haccess : access env a = .ok (settings, token))
    (hprints : a.printsOnly = true)
    (hload : (loadIssues a.results).run.run w.1 = (.ok (some issues), s)) :
    execute link env a w = (.ok (.returned 0),
      { s with output := s.output ++ commentBody env a issues ++ "\n" }, w.2) := by
  rw [execute, prepare_run haccess hload]
  dsimp only
  rw [if_pos hprints]
  rfl

/-- A command that only prints ends with zero. -/
theorem execute_of_prints {issues : List Issue} (haccess : access env a = .ok (settings, token))
    (hprints : a.printsOnly = true)
    (hload : (loadIssues a.results).run.run w.1 = (.ok (some issues), s)) :
    (execute link env a w).1 = .ok (.returned 0) ∧ (execute link env a w).2.2 = w.2 := by
  rw [execute_prints haccess hprints hload]
  exact ⟨rfl, rfl⟩

/-- The client of a command. -/
def clientFor (link : Link σ) (settings : Settings) (token : String) : GitHub.Client σ where
  carry := link.carry
  jitter := link.jitter
  token := token
  apiUrl := settings.apiUrl
  timeout := .float settings.timeout

/-- How a command ends for what became of a comment: with zero where it is there, with one where the
code host failed with a status, and with any other fault as it is. -/
def exitFor : Except GitHub.ApiFault GitHub.Upserted → Except Fault Ending
  | .ok _ => .ok (.returned 0)
  | .error fault => if fault.status?.isNone then .error (.api fault) else .ok (.returned 1)

/-- What became of a comment decides how a command ends. -/
theorem conclude_run (result : Except GitHub.ApiFault GitHub.Upserted) (s : Session) :
    ((conclude result).run.run s).1 = exitFor result := by
  cases result with
  | ok outcome => cases outcome <;> rfl
  | error fault =>
    rw [conclude, exitFor]
    split <;> rfl

/-- A command ends with zero exactly where the comment is there. -/
theorem exitFor_eq_zero_iff (result : Except GitHub.ApiFault GitHub.Upserted) :
    exitFor result = .ok (.returned 0) ↔ ∃ outcome, result = .ok outcome := by
  cases result with
  | ok outcome => exact iff_of_true rfl ⟨outcome, rfl⟩
  | error fault =>
    rw [exitFor]
    split <;> simp

/-- A command ends with one exactly where the code host failed with a status. -/
theorem exitFor_eq_one_iff (result : Except GitHub.ApiFault GitHub.Upserted) :
    exitFor result = .ok (.returned 1) ↔
      ∃ fault status, result = .error fault ∧ fault.status? = some status := by
  cases result with
  | ok outcome => simp [exitFor]
  | error fault =>
    rw [exitFor]
    cases hstatus : fault.status? with
    | none => simp [hstatus]
    | some status => simpa using ⟨status, hstatus⟩

/-- A command ends with a fault exactly where the upsert failed without a status. -/
theorem exitFor_eq_error_iff (result : Except GitHub.ApiFault GitHub.Upserted) (fault : Fault) :
    exitFor result = .error fault ↔
      ∃ cause, result = .error cause ∧ cause.status? = none ∧ fault = .api cause := by
  cases result with
  | ok outcome => simp [exitFor]
  | error cause =>
    rw [exitFor]
    cases hstatus : cause.status? with
    | none => simp [hstatus, eq_comm]
    | some status => simp [hstatus]

/-- **A command that posts a comment** does what an upsert does, and then says what became of the
comment. -/
theorem execute_upserts {issues : List Issue} (haccess : access env a = .ok (settings, token))
    (hposts : a.printsOnly = false)
    (hload : (loadIssues a.results).run.run w.1 = (.ok (some issues), s))
    {result : Except GitHub.ApiFault GitHub.Upserted} {talk : GitHub.Conversation σ}
    (hupsert : ((clientFor link settings token).upsert ⟨a.repo, a.number⟩ Comment.marker
      (commentBody env a issues)).run.run w.2 = (result, talk)) :
    (execute link env a w).1 = exitFor result ∧ (execute link env a w).2.2 = talk := by
  have hdeliver : (deliver link {
      pullRequest := ⟨a.repo, a.number⟩, body := commentBody env a issues, token := token
      apiUrl := settings.apiUrl, timeout := settings.timeout }).run.run w.2 = (result, talk) :=
    hupsert
  have hposting : (prepare env a).run.run w.1 = (.ok (.inr {
      pullRequest := ⟨a.repo, a.number⟩, body := commentBody env a issues, token := token
      apiUrl := settings.apiUrl, timeout := settings.timeout }), s) := by
    rw [prepare_run haccess hload]
    dsimp only
    rw [hposts]
    rfl
  rw [execute, hposting]
  dsimp only
  rw [hdeliver]
  exact ⟨conclude_run result _, rfl⟩

end Ways

/-! ### Good inputs -/

/-- A command whose inputs are refused ends with one and sends nothing. -/
theorem execute_of_refused {σ : Type} (link : Link σ) {env : Environment} {a : Arguments}
    {w : World σ} (hutf8 : ∀ octets, w.1.files.read (.parse a.results) = .ok octets →
      (Text.Utf8.decode? octets).isSome = true)
    (h : Refused w.1.files env a) :
    (execute link env a w).1 = .ok (.returned 1) ∧ (execute link env a w).2.2 = w.2 := by
  cases haccess : access env a with
  | error fault => exact execute_of_noAccess haccess
  | ok found =>
    obtain ⟨settings, token⟩ := found
    rcases h with ⟨fault, henv⟩ | ⟨hposts, hlacks⟩ | hnone
    · rw [access, henv] at haccess
      cases haccess
    · -- settings without a token give no access to the code host
      cases henv : Settings.ofEnvironment env with
      | error fault =>
        rw [access, henv] at haccess
        cases haccess
      | ok settings' =>
        have htoken := (token_eq_none_iff henv).2 hlacks
        rw [access, henv, hposts] at haccess
        dsimp only [bind, Except.bind] at haccess
        rw [if_neg Bool.false_ne_true, Settings.requireToken, htoken] at haccess
        cases haccess
    · have hroom (limit : Json.Limit) : ¬ ReadsBeyond w.1.files a.results limit :=
        fun hlimit => hlimit.not_reads none hnone
      obtain ⟨loaded, s, hreads, hload⟩ := loadIssues_run a.results w.1 hutf8 hroom
      obtain rfl := hreads.unique hnone
      exact execute_of_unread haccess hload

/-- A command whose other inputs are good and whose results are beyond the reader ends with that
limit. It neither says nor sends anything. -/
theorem execute_of_beyond {σ : Type} (link : Link σ) {env : Environment} {a : Arguments}
    {w : World σ} {limit : Json.Limit} (hgood : ¬ Refused w.1.files env a)
    (hlimit : ReadsBeyond w.1.files a.results limit) :
    execute link env a w = (.error (.output limit), w) := by
  obtain ⟨settings, token, -, haccess, -⟩ := exists_of_not_refused hgood
  exact execute_of_fault haccess (loadIssues_of_beyond hlimit)

/-- Good inputs whose results are not beyond the reader are issues. -/
theorem exists_issues_of_good {env : Environment} {a : Arguments} {s : Session}
    (hutf8 : ∀ octets, s.files.read (.parse a.results) = .ok octets →
      (Text.Utf8.decode? octets).isSome = true)
    (hgood : ¬ Refused s.files env a) (hroom : ∀ limit, ¬ ReadsBeyond s.files a.results limit) :
    ∃ issues s', Reads s.files a.results (some issues) ∧
      (loadIssues a.results).run.run s = (.ok (some issues), s') := by
  obtain ⟨loaded, s', hreads, hload⟩ := loadIssues_run a.results s hutf8 hroom
  cases loaded with
  | none => exact absurd (.inr (.inr hreads)) hgood
  | some issues => exact ⟨issues, s', hreads, hload⟩

/-- **Nothing is sent unless all inputs are good**, and the exit code says whether the comment was
written, unless the reader has come to a limit. For every transport, every environment whose code
host has a scheme, and every file of results that is UTF-8 where it is there:

* a command whose settings, token or results are refused ends with one and sends nothing;
* a command whose other inputs are good and whose results are beyond the reader ends with that
  limit, and does nothing;
* where neither is the case and no half of a surrogate pair stands on its own in the results, a
  command that only prints the comment ends with zero and sends nothing;
* and every other command does exactly what an upsert of the comment for its issues does. It ends
  with zero where the write was done, with one where the code host failed with a status, and with a
  limit exactly where the last reply to one of its requests is beyond that limit. -/
theorem posts_after_good_inputs {σ : Type} (carry : GitHub.Transport σ) (jitter : Binary64)
    (env : Environment) (a : Arguments) (w : World σ)
    (hscheme : ∀ settings, Settings.ofEnvironment env = .ok settings →
      (GitHub.Request.normalizeUrl? settings.apiUrl).isSome = true)
    (hutf8 : ∀ octets, w.1.files.read (.parse a.results) = .ok octets →
      (Text.Utf8.decode? octets).isSome = true) :
    let link : Link σ := ⟨carry, .float jitter⟩
    let exit := (execute link env a w).1
    let talk := (execute link env a w).2.2
    let good := ¬ Refused w.1.files env a ∧ (∀ limit, ¬ ReadsBeyond w.1.files a.results limit) ∧
      ∀ text, w.1.files.readText (.parse a.results) = .ok text → Json.PairsHalves text
    (Refused w.1.files env a → exit = .ok (.returned 1) ∧ talk = w.2) ∧
    (∀ limit, ¬ Refused w.1.files env a → ReadsBeyond w.1.files a.results limit →
      execute link env a w = (.error (.output limit), w)) ∧
    (good → a.printsOnly = true → exit = .ok (.returned 0) ∧ talk = w.2) ∧
    (good → a.printsOnly = false →
      ∃ (settings : Settings) (token : String) (issues : List Issue)
        (pages write : List GitHub.Exchange) (result : Except GitHub.ApiFault GitHub.Upserted),
        Settings.ofEnvironment env = .ok settings ∧ settings.token = some token ∧
        Reads w.1.files a.results (some issues) ∧
        ((clientFor link settings token).upsert ⟨a.repo, a.number⟩ Comment.marker
          (commentBody env a issues)).run.run w.2 = (result, talk) ∧
        (clientFor link settings token).Logs
          ((pages ++ write).flatMap GitHub.Exchange.attempts) w.2 talk ∧
        (clientFor link settings token).WritesOnce ⟨a.repo, a.number⟩ Comment.marker
          (commentBody env a issues) pages write result ∧
        (exit = .ok (.returned 0) ↔ ∃ e ∈ write, e.IsDone) ∧
        (exit = .ok (.returned 1) ↔
          ∃ fault status, result = .error fault ∧ fault.status? = some status) ∧
        ∀ fault, exit = .error fault ↔ ∃ limit, fault = .api (.unreadable limit) ∧
          ∃ e ∈ pages ++ write, e.EndsBeyond limit) := by
  intro link exit talk good
  refine ⟨execute_of_refused link hutf8, fun limit => execute_of_beyond link,
    fun ⟨hgood, hroom, _⟩ hprints => ?_, fun ⟨hgood, hroom, _⟩ hposts => ?_⟩
  · obtain ⟨settings, token, -, haccess, -⟩ := exists_of_not_refused hgood
    obtain ⟨issues, s, -, hload⟩ := exists_issues_of_good hutf8 hgood hroom
    exact execute_of_prints haccess hprints hload
  · obtain ⟨settings, token, henv, haccess, htoken⟩ := exists_of_not_refused hgood
    obtain ⟨issues, s, hreads, hload⟩ := exists_issues_of_good hutf8 hgood hroom
    have hattempts : 1 ≤ (3 : Int) ∧ (3 : Int) ≤ 1000 := by decide
    obtain ⟨pages, write, result, after, hupsert, hlogs, hwrites⟩ :=
      (clientFor link settings token).upsert_writesOnce (hscheme settings henv) rfl rfl
        hattempts.1 hattempts.2 ⟨a.repo, a.number⟩ Comment.marker (commentBody env a issues) w.2
    obtain ⟨hexit, htalk⟩ : exit = exitFor result ∧ talk = after :=
      execute_upserts haccess hposts hload hupsert
    subst htalk
    rw [hexit]
    refine ⟨settings, token, issues, pages, write, result, henv, htoken hposts, hreads, hupsert,
      hlogs, hwrites, ?_, exitFor_eq_one_iff result, fun fault => ?_⟩
    · rw [exitFor_eq_zero_iff, hwrites.ok_iff]
    · simp only [exitFor_eq_error_iff, ← hwrites.unreadable_iff]
      constructor
      · rintro ⟨cause, rfl, hnone, rfl⟩
        rcases hwrites.failed cause rfl with ⟨status, hstatus⟩ | ⟨limit, rfl⟩
        · cases hnone.symm.trans hstatus
        · exact ⟨limit, rfl, rfl⟩
      · rintro ⟨limit, rfl, rfl⟩
        exact ⟨_, rfl, rfl, rfl⟩

/-- A code host without comments, which creates one. -/
def creatingReplies : List GitHub.Reply :=
  [⟨200, [91, 93]⟩, ⟨201, Text.Utf8.encode "\x7b\"id\": 2\x7d"⟩]

/-- An environment with a token. -/
def tokenEnvironment : Environment := [("GITHUB_TOKEN", " t ")]

/-- The text of a results file with one issue. -/
def oneResult : String := "[\x7b\"ruleId\": \"a\"\x7d]"

/-- A session with a results file of some octets. -/
def sessionWith (octets : List UInt8) : Session where
  files := ⟨[(⟨.working, ["r.json"]⟩, .file octets false)]⟩

/-- A session with the results file of one issue. -/
def resultsSession : Session := sessionWith (Text.Utf8.encode oneResult)

/-- The arguments for a comment on it. -/
def resultsArguments : Arguments where
  repo := some "o/r"
  number := some 1
  results := "r.json"

/-- A comment on one issue is posted after one page of comments, the write is done, and the command
ends with zero. -/
theorem resultsArguments_posted :
    let ran := execute ⟨GitHub.carryScript, .float (.zero false)⟩ tokenEnvironment resultsArguments
      (resultsSession, { transport := creatingReplies })
    ran.1 = .ok (.returned 0) ∧ ran.2.2.sent.map (·.method) = ["GET", "POST"] ∧
    ∃ (issues : List Issue) (write : List GitHub.Exchange),
      Reads resultsSession.files "r.json" (some issues) ∧ ∃ e ∈ write, e.IsDone := by
  intro ran
  have hurl : (Settings.ofEnvironment tokenEnvironment).toOption.map (·.apiUrl) =
      some "https://api.github.com" := by
    decide +kernel
  have hscheme : ∀ settings, Settings.ofEnvironment tokenEnvironment = .ok settings →
      (GitHub.Request.normalizeUrl? settings.apiUrl).isSome = true := by
    intro settings henv
    rw [henv] at hurl
    have hdefault : settings.apiUrl = "https://api.github.com" := Option.some.inj hurl
    rw [hdefault]
    decide +kernel
  have hread : resultsSession.files.read (.parse "r.json") = .ok (Text.Utf8.encode oneResult) := rfl
  have hutf8 : ∀ octets, resultsSession.files.read (.parse "r.json") = .ok octets →
      (Text.Utf8.decode? octets).isSome = true := by
    intro octets h
    rw [← Except.ok.inj (hread.symm.trans h), Text.Utf8.decode?_encode]
    rfl
  have htext : resultsSession.files.readText (.parse "r.json") = .ok oneResult := by
    decide +kernel
  have hreads : Reads resultsSession.files "r.json"
      (some [⟨"a", "warning", "Lint issue", "unknown", 1, 1, none⟩]) := by
    have hfound : Issue.readOutput oneResult none =
        .ok ⟨[⟨"a", "warning", "Lint issue", "unknown", 1, 1, none⟩], []⟩ := by
      decide +kernel
    exact .issues (by decide) htext (by decide) hfound
  have hgood : ¬ Refused resultsSession.files tokenEnvironment resultsArguments := by
    rintro (⟨fault, henv⟩ | ⟨-, hlacks⟩ | hnone)
    · rw [henv] at hurl
      cases hurl
    · exact absurd (hlacks " t " rfl) (by decide)
    · cases hreads.unique hnone
  have hroom (limit : Json.Limit) : ¬ ReadsBeyond resultsSession.files "r.json" limit :=
    fun hlimit => hlimit.not_reads _ hreads
  have hpairs : ∀ text, resultsSession.files.readText (.parse "r.json") = .ok text →
      Json.PairsHalves text := by
    intro text h
    obtain rfl : text = oneResult := Except.ok.inj (h.symm.trans htext)
    decide +kernel
  have hexit : ran.1 = .ok (.returned 0) := by decide +kernel
  have hsent : ran.2.2.sent.map (·.method) = ["GET", "POST"] := by decide +kernel
  obtain ⟨settings, token, issues, pages, write, result, -, -, hissues, -, -, -, hdone, -⟩ :=
    (posts_after_good_inputs GitHub.carryScript (.zero false) tokenEnvironment resultsArguments
      (resultsSession, { transport := creatingReplies }) hscheme hutf8).2.2.2
      ⟨hgood, hroom, hpairs⟩ rfl
  exact ⟨hexit, hsent, issues, write, hissues, hdone.1 hexit⟩

/-- Whatever text a results file holds, if it is beyond the reader, a comment on it is neither
posted nor printed. -/
theorem resultsArguments_of_beyond {text : String} {limit : Json.Limit}
    (hreturn : '\r' ∉ text.toList) (hlimit : Json.parse text = .error (.beyond limit)) {σ : Type}
    (link : Link σ) (talk : GitHub.Conversation σ) (prints : Bool) :
    let w : World σ := (sessionWith (Text.Utf8.encode text), talk)
    execute link tokenEnvironment { resultsArguments with printsOnly := prints } w =
      (.error (.output limit), w) := by
  intro w
  have htext : w.1.files.readText (.parse "r.json") = .ok text :=
    FileTree.readText_eq_ok rfl hreturn
  have hload : (loadIssues "r.json").run.run w.1 = (.error (.output limit), w.1) :=
    loadIssues_of_beyond ⟨by decide, text, htext, hlimit⟩
  let a : Arguments := { resultsArguments with printsOnly := prints }
  have hgiven : (access tokenEnvironment a).toOption.isSome = true := by
    cases prints <;> decide +kernel
  cases haccess : access tokenEnvironment a with
  | error fault =>
    rw [haccess] at hgiven
    cases hgiven
  | ok found => exact execute_of_fault haccess hload

/-- **Open brackets end a command that posts**, and one that only prints, with a limit of the
reader: there is no exit code, nothing is said about the results, and nothing is sent. -/
theorem openBrackets_end_posting :
    Text.isBlankText (Json.openBrackets 10000) = false ∧
    (∀ v, Json.parse (Json.openBrackets 10000) ≠ .ok v) ∧
    ∀ prints, execute ⟨GitHub.carryScript, .float (.zero false)⟩ tokenEnvironment
      { resultsArguments with printsOnly := prints }
      (sessionWith (Text.Utf8.encode (Json.openBrackets 10000)), { transport := [] }) =
        (.error (.output .nesting), sessionWith (Text.Utf8.encode (Json.openBrackets 10000)),
          { transport := [] }) := by
  have hdeep : Json.depthLimit < 10000 := by decide
  have hlimit := Json.parse_openBrackets hdeep
  refine ⟨Json.isBlankText_of_beyond hlimit, fun v hv => ?_, fun prints => ?_⟩
  · cases hlimit.symm.trans hv
  · exact resultsArguments_of_beyond (Json.notMem_openBrackets (by decide) _) hlimit _ _ prints

end LintReport.CommandLine.Post
