import LintReport.Proofs.CommandLine.Posting

/-!
# The Preview of a Comment

The command that comments reads its results and puts the comment together in the same way whether it
prints the comment or posts it. Of the environment the comment depends on what is said about the
repository, and not on how the code host is reached; and what the code host says comes too late for
it. So a command that only prints shows what every command with the same values sends. Where the
results are beyond the reader, there is nothing to show and nothing to send.

## Main definitions

* `Environment.AgreesBesideAccess`: environments that differ in the token and the timeout at most.

## Main results

* `commentBody_congr`: the comment depends on neither the token nor the timeout.
* `execute_sends`: what a command with issues sends, and that it has written where it ends with
  zero.
* `preview_is_posted`: **what is printed beforehand is what is posted**.
-/

namespace LintReport

/-- Whether two environments differ at most in the token and the timeout for the code host. -/
def Environment.AgreesBesideAccess (env env' : Environment) : Prop :=
  ∀ name, name ≠ "GITHUB_TOKEN" → name ≠ "TEMPO_LINTS_HTTP_TIMEOUT" → env.get? name = env'.get? name

namespace CommandLine.Post

/-! ### One comment -/

/-- **The comment depends on neither the token nor the timeout**, nor on what is done with it. -/
theorem commentBody_congr {env env' : Environment} (h : env.AgreesBesideAccess env')
    (a : Arguments) (prints prints' : Bool) (issues : List Issue) :
    commentBody env { a with printsOnly := prints } issues =
      commentBody env' { a with printsOnly := prints' } issues := by
  have hserver := h "GITHUB_SERVER_URL" (by decide) (by decide)
  have hrepo := h "GITHUB_REPOSITORY" (by decide) (by decide)
  have hsha := h "GITHUB_SHA" (by decide) (by decide)
  simp only [commentBody, RepoContext.resolve, Environment.nonEmpty?, hserver, hrepo, hsha]

/-- Reading a results file prints nothing. -/
theorem load_output (p : Path) (s : Session) :
    ((Results.load p).run.run s).2.output = s.output := by
  rw [Results.load, Run.run_files_bind]
  cases s.files.hasFile p with
  | error fault => rfl
  | ok there =>
    cases there with
    | false => rfl
    | true =>
      cases htext : s.files.readText p with
      | error fault => rfl
      | ok text =>
        change ((Run.ofExcept ((Results.ofText text).mapError ResultsFault.output) :
          Run ResultsFault (List Issue)).run.run s).2.output = s.output
        cases Results.ofText text <;> rfl

/-- Reading results prints nothing, whatever they amount to. -/
theorem loadIssues_output (results : String) (s : Session) :
    ((loadIssues results).run.run s).2.output = s.output := by
  by_cases hnamed : results = ""
  · subst hnamed
    rfl
  rw [← load_output (.parse results) s]
  rcases hload : (Results.load (.parse results)).run.run s with ⟨r, s'⟩
  rw [loadIssues_of_load hnamed hload]
  -- what is said about a fault is not part of the output
  cases r with
  | ok issues => rfl
  | error fault =>
    cases fault with
    | text fault => cases fault <;> rfl
    | output fault => cases fault <;> rfl

/-! ### Two ways -/

section Ways

variable {σ : Type} {env : Environment} {a : Arguments} {w : World σ} {issues : List Issue}

/-- **What a command with issues sends**: questions, and writes that hold the comment for the
issues. Where it ends with zero, it has written. -/
theorem execute_sends (link : Link σ) (hposts : a.printsOnly = false)
    (hutf8 : ∀ octets, w.1.files.read (.parse a.results) = .ok octets →
      (Text.Utf8.decode? octets).isSome = true)
    (hreads : Reads w.1.files a.results (some issues)) :
    ∃ requests, (execute link env a w).2.2.sent = w.2.sent ++ requests ∧
      (∀ request ∈ requests, request.method = "GET" ∨
        request.IsWrite ∧ request.Holds (.obj [("body", .str (commentBody env a issues))])) ∧
      ((execute link env a w).1 = .ok (.returned 0) → ∃ request ∈ requests, request.IsWrite) := by
  cases haccess : access env a with
  | error fault =>
    obtain ⟨hexit, htalk⟩ : (execute link env a w).1 = .ok (.returned 1) ∧
        (execute link env a w).2.2 = w.2 := execute_of_noAccess haccess
    refine ⟨[], by rw [htalk, List.append_nil], List.forall_mem_nil _, fun hzero => ?_⟩
    rw [hexit] at hzero
    cases hzero
  | ok found =>
    obtain ⟨settings, token⟩ := found
    have hroom (limit : Json.Limit) : ¬ ReadsBeyond w.1.files a.results limit :=
      fun hlimit => hlimit.not_reads _ hreads
    obtain ⟨loaded, s, hloaded, hload⟩ := loadIssues_run a.results w.1 hutf8 hroom
    obtain rfl := hloaded.unique hreads
    obtain ⟨pages, write, result, talk, hupserts, hupsert, hlogs⟩ :=
      (clientFor link settings token).upsert_upserts ⟨a.repo, a.number⟩ Comment.marker
        (commentBody env a issues) w.2
    obtain ⟨hexit, htalk⟩ := execute_upserts haccess hposts hload hupsert
    refine ⟨_, by rw [htalk, hlogs.sent], hupserts.sends, fun hzero => ?_⟩
    obtain ⟨outcome, rfl⟩ := (exitFor_eq_zero_iff result).1 (hexit.symm.trans hzero)
    obtain ⟨e, he⟩ := hupserts.exists_write
    exact ⟨e.request, GitHub.Exchange.mem_requests_iff.2 ⟨e, List.mem_append_right pages he, rfl⟩,
      (hupserts.of_mem_write e he).1⟩

end Ways

/-! ### The preview -/

/-- Inputs that are refused in a preview are refused in posting. -/
theorem Refused.of_prints {t : FileTree} {env : Environment} {a : Arguments}
    (h : Refused t env { a with printsOnly := true }) :
    Refused t env { a with printsOnly := false } := by
  rcases h with henv | ⟨hposts, -⟩ | hnone
  · exact .inl henv
  · cases hposts
  · exact .inr (.inr hnone)

/-- **What is printed beforehand is what is posted.** For every environment and every file of
results that is UTF-8 where it is there, a command that only prints sends nothing:

* where it ends with zero, it has printed one body and a line end, and that body is held by every
  write of every command that posts with the same values and files, in every environment that
  differs in the token and the timeout at most, over every link and after every conversation. Such a
  command sends nothing else but questions, and it has written where it ends with zero;
* where it ends with one, so does every command that posts with the same values and files in that
  environment, and it sends nothing;
* it ends with zero or with one where the results are not beyond the reader and have no half of a
  surrogate pair on its own. -/
theorem preview_is_posted {σ τ : Type} (preview : Link σ) (env : Environment) (a : Arguments)
    (w : World σ)
    (hutf8 : ∀ octets, w.1.files.read (.parse a.results) = .ok octets →
      (Text.Utf8.decode? octets).isSome = true) :
    let shown := execute preview env { a with printsOnly := true } w
    let posted (link : Link τ) (env' : Environment) (w' : World τ) :=
      execute link env' { a with printsOnly := false } w'
    shown.2.2 = w.2 ∧
    (shown.1 = .ok (.returned 0) → ∃ body, shown.2.1.output = w.1.output ++ body ++ "\n" ∧
      ∀ (link : Link τ) (env' : Environment) (w' : World τ), env.AgreesBesideAccess env' →
        w'.1.files = w.1.files →
        ∃ requests, (posted link env' w').2.2.sent = w'.2.sent ++ requests ∧
          (∀ request ∈ requests, request.method = "GET" ∨
            request.IsWrite ∧ request.Holds (.obj [("body", .str body)])) ∧
          ((posted link env' w').1 = .ok (.returned 0) →
            ∃ request ∈ requests, request.IsWrite)) ∧
    (shown.1 = .ok (.returned 1) →
      ∀ (link : Link τ) (w' : World τ), w'.1.files = w.1.files →
        (posted link env w').1 = .ok (.returned 1) ∧ (posted link env w').2.2 = w'.2) ∧
    ((∀ limit, ¬ ReadsBeyond w.1.files a.results limit) →
      (∀ text, w.1.files.readText (.parse a.results) = .ok text → Json.PairsHalves text) →
      shown.1 = .ok (.returned 0) ∨ shown.1 = .ok (.returned 1)) := by
  intro shown posted
  by_cases hrefused : Refused w.1.files env { a with printsOnly := true }
  · obtain ⟨hexit, htalk⟩ : shown.1 = .ok (.returned 1) ∧ shown.2.2 = w.2 :=
      execute_of_refused preview hutf8 hrefused
    refine ⟨htalk, fun hzero => ?_, fun _ link w' hfiles => ?_, fun _ _ => .inr hexit⟩
    · cases hexit.symm.trans hzero
    · rw [← hfiles] at hutf8 hrefused
      exact execute_of_refused link hutf8 hrefused.of_prints
  by_cases hlimit : ∃ limit, ReadsBeyond w.1.files a.results limit
  · obtain ⟨limit, hlimit⟩ := hlimit
    have hshown : shown = (.error (.output limit), w) :=
      execute_of_beyond preview hrefused hlimit
    have hexit : shown.1 = .error (.output limit) := congrArg Prod.fst hshown
    refine ⟨congrArg (·.2.2) hshown, fun hzero => ?_, fun hone => ?_, fun hroom _ => ?_⟩
    · cases hexit.symm.trans hzero
    · cases hexit.symm.trans hone
    · exact absurd hlimit (hroom limit)
  · have hroom := not_exists.1 hlimit
    obtain ⟨settings, token, -, haccess, -⟩ := exists_of_not_refused hrefused
    obtain ⟨issues, s, hreads, hload⟩ :=
      @exists_issues_of_good env { a with printsOnly := true } w.1 hutf8 hrefused hroom
    have hshown : shown = (.ok (.returned 0),
        { s with
          output := s.output ++ commentBody env { a with printsOnly := true } issues ++ "\n" },
        w.2) := execute_prints haccess rfl hload
    have hexit : shown.1 = .ok (.returned 0) := congrArg Prod.fst hshown
    have houtput : s.output = w.1.output := by
      rw [← loadIssues_output a.results w.1, hload]
    refine ⟨congrArg (·.2.2) hshown,
      fun _ => ⟨commentBody env { a with printsOnly := true } issues, ?_,
        fun link env' w' hagrees hfiles => ?_⟩, fun hone => ?_, fun _ _ => .inl hexit⟩
    · rw [← houtput]
      exact congrArg (·.2.1.output) hshown
    · rw [← hfiles] at hutf8 hreads
      rw [commentBody_congr hagrees a true false issues]
      exact execute_sends link rfl hutf8 hreads
    · cases hexit.symm.trans hone

/-- An environment that differs from the one with a token in the token and the timeout. -/
def hastyEnvironment : Environment :=
  [("TEMPO_LINTS_HTTP_TIMEOUT", "2.5"), ("GITHUB_TOKEN", "u")]

/-- A code host with a marked comment, which is unavailable once before it changes the comment. -/
def changingReplies : List GitHub.Reply :=
  [⟨200, Text.Utf8.encode (Json.arr [.obj [("id", .int 7),
    ("body", .str Comment.marker)]]).compact⟩, ⟨502, []⟩, ⟨200, [123, 125]⟩]

/-- What is printed for one issue, in the environment with a token, is what both attempts hold that
are made in the other one to change the marked comment. -/
theorem resultsArguments_previewed :
    let a := resultsArguments
    let link : Link (List GitHub.Reply) := ⟨GitHub.carryScript, .float (.zero false)⟩
    let shown := execute link tokenEnvironment { a with printsOnly := true }
      (resultsSession, { transport := [] })
    let posted := execute link hastyEnvironment { a with printsOnly := false }
      (resultsSession, { transport := changingReplies })
    shown.1 = .ok (.returned 0) ∧ posted.1 = .ok (.returned 0) ∧
    posted.2.2.sent.map (·.method) = ["GET", "PATCH", "PATCH"] ∧
    ∃ body, shown.2.1.output = body ++ "\n" ∧ ∀ request ∈ posted.2.2.sent,
      request.method = "GET" ∨ request.IsWrite ∧ request.Holds (.obj [("body", .str body)]) := by
  intro a link shown posted
  have hshown : shown.1 = .ok (.returned 0) := by decide +kernel
  have hposted : posted.1 = .ok (.returned 0) ∧
      posted.2.2.sent.map (·.method) = ["GET", "PATCH", "PATCH"] := by decide +kernel
  have hread : resultsSession.files.read (.parse "r.json") = .ok (Text.Utf8.encode oneResult) := rfl
  have hutf8 : ∀ octets, resultsSession.files.read (.parse "r.json") = .ok octets →
      (Text.Utf8.decode? octets).isSome = true := by
    intro octets h
    rw [← Except.ok.inj (hread.symm.trans h), Text.Utf8.decode?_encode]
    rfl
  have hagrees : tokenEnvironment.AgreesBesideAccess hastyEnvironment := by
    intro name htoken htimeout
    have htoken : (name == "GITHUB_TOKEN") = false := beq_false_of_ne htoken
    have htimeout : (name == "TEMPO_LINTS_HTTP_TIMEOUT") = false := beq_false_of_ne htimeout
    rw [Environment.get?, Environment.get?, tokenEnvironment, hastyEnvironment]
    simp only [List.lookup_cons, List.lookup_nil, htoken, htimeout]
  obtain ⟨-, hpreviewed, -, -⟩ :=
    preview_is_posted link tokenEnvironment a (resultsSession, { transport := [] }) hutf8
  obtain ⟨body, hbody, hsame⟩ := hpreviewed hshown
  obtain ⟨requests, hsent, hall, -⟩ := hsame link hastyEnvironment
    (resultsSession, { transport := changingReplies }) hagrees rfl
  refine ⟨hshown, hposted.1, hposted.2, body, ?_, fun request hrequest => hall request ?_⟩
  · have hprinted : shown.2.1.output = resultsSession.output ++ body ++ "\n" := hbody
    rw [hprinted, show resultsSession.output = "" from rfl, String.empty_append]
  · have hposting : posted.2.2.sent = [] ++ requests := hsent
    rwa [hposting, List.nil_append] at hrequest

end CommandLine.Post

end LintReport
