import LintReport.Proofs.Rules.Discovery

/-!
# Rules That Cannot Be Read

The rule directories of a selection are read one after the other, and the rule files of a directory
by name. The first thing that goes wrong ends the reading, and it decides with which fault: a path
that the system cannot be asked about, octets that are no text, a text that is not well-formed, or a
scalar of which no value can be made. Only a text that is not well-formed is refused by the name of
its file.

## Main definitions

* `Rules.IsRuleFile`: the rule files that lie directly in a directory.
* `Rules.StopsAt`: the file at which the reading stops.
* `Rules.StopsWith`: with which fault it stops.

## Main results

* `Rules.isRuleFile_of_mem`: only rule files are read.
* `Rules.ids_eq_error_iff`: **the first thing that goes wrong decides the fault**.
* `Rules.ids_refused_iff`: which rule trees have their rules, or are refused by the name of a file.
-/

namespace LintReport

namespace Rules

variable {t : FileTree} {dir path : Path} {dirs paths : List Path} {fault : RuleFault}

/-! ### Rule files -/

/-- **A rule file of a directory**: a file with one of two endings that lies directly in it. -/
structure IsRuleFile (t : FileTree) (dir path : Path) : Prop where
  directory : t.isDirectory dir = true
  named : ∃ name, path = dir.child name ∧
    (".yml".toList <:+ name.toList ∨ ".yaml".toList <:+ name.toList)
  readable : ∃ octets, t.read path = .ok octets

/-- The suffix of a name is at its end. -/
theorem suffixOf_isSuffix (name : List Char) : Path.suffixOf name <:+ name := by
  rw [Path.suffixOf]
  split
  · exact List.nil_suffix
  · next hpoint =>
    have hparts := List.takeWhile_append_dropWhile (p := (· != '.')) (l := name.reverse)
    cases hrest : name.reverse.dropWhile (· != '.') with
    | nil =>
      rw [hrest, List.append_nil] at hparts
      simp [hparts] at hpoint
    | cons c rest =>
      have hc : (c != '.') = false := by
        have hhead := List.head?_dropWhile_not (· != '.') name.reverse
        rw [hrest] at hhead
        simpa using hhead
      obtain rfl : c = '.' := by simpa using hc
      rw [hrest] at hparts
      refine ⟨rest.reverse, ?_⟩
      simpa using congrArg List.reverse hparts

/-- The name of a rule file has one of two endings. -/
theorem suffix_of_isRuleName {name : String} (h : isRuleName name = true) :
    ".yml".toList <:+ name.toList ∨ ".yaml".toList <:+ name.toList := by
  have hsuffix := suffixOf_isSuffix name.toList
  have hending : String.ofList (Path.suffixOf name.toList) = ".yml" ∨
      String.ofList (Path.suffixOf name.toList) = ".yaml" := by
    simpa [isRuleName] using h
  rcases hending with heq | heq
  · left
    rwa [← heq, String.toList_ofList]
  · right
    rwa [← heq, String.toList_ofList]

/-- **Only rule files are read.** -/
theorem isRuleFile_of_mem (h : files t dir = .ok paths) (hpath : path ∈ paths) :
    IsRuleFile t dir path := by
  obtain ⟨name, hname, rfl, octets, hread⟩ := (mem_of_files h).1 hpath
  obtain ⟨l, hl, -⟩ := FileTree.exists_stat_of_read_child (ne_up_of_isRuleName hname) hread
  exact {
    directory := by rw [FileTree.isDirectory, hl]
    named := ⟨name, rfl, suffix_of_isRuleName hname⟩
    readable := ⟨octets, hread⟩ }

/-- The rule files of a directory cannot be told where its path, or that of an entry, is too
long. -/
theorem files_eq_error {e : FileFault} (h : files t dir = .error e) :
    ∃ p, (p = dir ∨ ∃ name, p = dir.child name) ∧ t.stat p = .error .nameTooLong ∧
      e = ⟨.nameTooLong, p.text⟩ := by
  cases hlook : t.look dir with
  | error e' =>
    rw [files, hlook] at h
    cases h
    exact ⟨dir, .inl rfl, FileTree.look_eq_error_iff.1 hlook⟩
  | ok what =>
    by_cases hdir : ∃ l, t.stat dir = .ok (l, .directory)
    · obtain ⟨l, hdir⟩ := hdir
      rw [files_of_stat hdir] at h
      cases hnames : (t.namesIn l).filterM fun name => t.hasFile (dir.child name) with
      | error e' =>
        rw [hnames] at h
        cases h
        obtain ⟨name, -, hname⟩ := exists_of_filterM_eq_error hnames
        rw [FileTree.hasFile_eq_error_iff, FileTree.look_eq_error_iff] at hname
        exact ⟨dir.child name, .inr ⟨name, rfl⟩, hname⟩
      | ok names =>
        rw [hnames] at h
        cases h
    · rw [files_of_not_directory hlook (not_exists.1 hdir)] at h
      cases h

/-! ### Where the reading stops -/

/-- **The file at which the reading of some directories stops**: it is a rule file of one of them,
and all rules before it, in that directory and in those before it, have been read. -/
def StopsAt (t : FileTree) (dirs : List Path) (path : Path) : Prop :=
  ∃ before dir after front back, dirs = before ++ dir :: after ∧
    files t dir = .ok (front ++ path :: back) ∧
    (∀ earlier ∈ before, ∃ found, idsOfDirectory t earlier = .ok found) ∧
    ∀ earlier ∈ front, ∃ found, idsOfFile t earlier = .ok found

/-- **The fault with which the reading of some directories stops.** -/
inductive StopsWith (t : FileTree) (dirs : List Path) : RuleFault → Prop
  /-- The rule files of a directory cannot be told: a path is too long for the system. -/
  | unsearchable {before after : List Path} {dir : Path} {e : FileFault} :
      dirs = before ++ dir :: after →
      (∀ earlier ∈ before, ∃ found, idsOfDirectory t earlier = .ok found) →
      files t dir = .error e → StopsWith t dirs (.text (.file e))
  /-- The octets of a rule file are no text. -/
  | notUtf8 {path : Path} {octets : List UInt8} : StopsAt t dirs path →
      t.read path = .ok octets → Text.Utf8.decode? octets = none →
      StopsWith t dirs (.text .notUtf8)
  /-- The text of a rule file is not well-formed: it is refused by the name of the file. -/
  | malformed {path : Path} {text : String} : StopsAt t dirs path →
      t.readText path = .ok text → Yaml.loadAll text = .error .malformed →
      StopsWith t dirs (.document (.refused (.ruleSyntax path.text)))
  /-- No value can be made of a scalar in a rule file, or its collections are nested too deeply. -/
  | unmade {path : Path} {text : String} {e : Yaml.Fault} : StopsAt t dirs path →
      t.readText path = .ok text → Yaml.loadAll text = .error e → e ≠ .malformed →
      StopsWith t dirs (.document (.scalar e))

/-- The rules of a directory cannot be read where its rule files cannot be told, or where one of
them is the first that cannot be read. -/
theorem idsOfDirectory_eq_error_iff :
    idsOfDirectory t dir = .error fault ↔
      (∃ e, files t dir = .error e ∧ fault = .text (.file e)) ∨
        ∃ front path back, files t dir = .ok (front ++ path :: back) ∧
          (∀ earlier ∈ front, ∃ found, idsOfFile t earlier = .ok found) ∧
          idsOfFile t path = .error fault := by
  rw [idsOfDirectory]
  cases files t dir with
  | error e => simp [bind, Except.bind, Except.mapError, eq_comm]
  | ok paths =>
    have hloop : (do let lists ← paths.mapM (idsOfFile t); pure lists.flatten) =
        (.error fault : Except RuleFault (List String)) ↔
        paths.mapM (idsOfFile t) = .error fault := by
      cases paths.mapM (idsOfFile t) <;> simp [bind, Except.bind, pure, Except.pure]
    refine hloop.trans (mapM_eq_error_iff.trans ?_)
    simp only [reduceCtorEq, false_and, exists_false, false_or, Except.ok.injEq]

/-- A file has no ids where its octets are no text, or where its text cannot be loaded. -/
theorem idsOfFile_eq_error_iff {octets : List UInt8} (hread : t.read path = .ok octets) :
    idsOfFile t path = .error fault ↔
      Text.Utf8.decode? octets = none ∧ fault = .text .notUtf8 ∨
        ∃ text e, t.readText path = .ok text ∧ Yaml.loadAll text = .error e ∧
          fault = .document (ReadFault.ofYaml (.ruleSyntax path.text) e) := by
  rw [idsOfFile, FileTree.readText, hread, Text.Utf8.decode?]
  dsimp only
  cases Text.Utf8.decodeChars? octets with
  | none => simp [eq_comm]
  | some cs =>
    simp only [Option.map_some, reduceCtorEq, false_and, false_or, idsOfText, Except.ok.injEq]
    cases hload : Yaml.loadAll (String.ofList (Text.unifyNewlines cs)) with
    | error e => simp [hload, eq_comm]
    | ok documents => simp [hload]

/-- A file at which the reading stops can be read. -/
theorem StopsAt.exists_isRuleFile (h : StopsAt t dirs path) :
    ∃ dir ∈ dirs, IsRuleFile t dir path := by
  obtain ⟨before, dir, after, front, back, rfl, hfiles, -⟩ := h
  exact ⟨dir, by simp, isRuleFile_of_mem hfiles (by simp)⟩

/-- With which fault the reading stops at a file. -/
theorem StopsAt.stopsWith (h : StopsAt t dirs path) (hfault : idsOfFile t path = .error fault) :
    StopsWith t dirs fault := by
  obtain ⟨dir, -, hrule⟩ := h.exists_isRuleFile
  obtain ⟨octets, hread⟩ := hrule.readable
  obtain ⟨hdecode, rfl⟩ | ⟨text, e, htext, hload, rfl⟩ := (idsOfFile_eq_error_iff hread).1 hfault
  · exact .notUtf8 h hread hdecode
  · cases e with
    | malformed => exact .malformed h htext hload
    | _ => exact .unmade h htext hload nofun

/-- **The first thing that goes wrong decides the fault** with which the reading of a selection
ends. -/
theorem ids_eq_error_iff {selector : LanguageSelector} {root : Path} :
    ids t selector root = .error fault ↔ StopsWith t (selector.ruleDirs root) fault := by
  have hloop : ids t selector root = .error fault ↔
      (selector.ruleDirs root).mapM (idsOfDirectory t) = .error fault := by
    rw [ids]
    cases (selector.ruleDirs root).mapM (idsOfDirectory t) <;>
      simp [bind, Except.bind, pure, Except.pure]
  rw [hloop, mapM_eq_error_iff]
  constructor
  · rintro ⟨before, dir, after, hdirs, hbefore, hdir⟩
    obtain ⟨e, hfiles, rfl⟩ | ⟨front, path, back, hfiles, hfront, hfile⟩ :=
      idsOfDirectory_eq_error_iff.1 hdir
    · exact .unsearchable hdirs hbefore hfiles
    · have hstops : StopsAt t (selector.ruleDirs root) path :=
        ⟨before, dir, after, front, back, hdirs, hfiles, hbefore, hfront⟩
      exact hstops.stopsWith hfile
  · have hstops {path : Path} (h : StopsAt t (selector.ruleDirs root) path)
        (hfile : idsOfFile t path = .error fault) :
        ∃ before dir after, selector.ruleDirs root = before ++ dir :: after ∧
          (∀ earlier ∈ before, ∃ found, idsOfDirectory t earlier = .ok found) ∧
          idsOfDirectory t dir = .error fault := by
      obtain ⟨before, dir, after, front, back, hdirs, hfiles, hbefore, hfront⟩ := h
      exact ⟨before, dir, after, hdirs, hbefore,
        idsOfDirectory_eq_error_iff.2 (.inr ⟨front, path, back, hfiles, hfront, hfile⟩)⟩
    intro h
    cases h with
    | unsearchable hdirs hbefore hfiles =>
      exact ⟨_, _, _, hdirs, hbefore, idsOfDirectory_eq_error_iff.2 (.inl ⟨_, hfiles, rfl⟩)⟩
    | notUtf8 hat hread hdecode =>
      exact hstops hat ((idsOfFile_eq_error_iff hread).2 (.inl ⟨hdecode, rfl⟩))
    | malformed hat htext hload =>
      obtain ⟨_, -, hrule⟩ := hat.exists_isRuleFile
      obtain ⟨octets, hread⟩ := hrule.readable
      exact hstops hat ((idsOfFile_eq_error_iff hread).2 (.inr ⟨_, _, htext, hload, rfl⟩))
    | unmade hat htext hload hother =>
      obtain ⟨_, -, hrule⟩ := hat.exists_isRuleFile
      obtain ⟨octets, hread⟩ := hrule.readable
      refine hstops hat ((idsOfFile_eq_error_iff hread).2 (.inr ⟨_, _, htext, hload, ?_⟩))
      rw [ReadFault.ofYaml]
      exact fun heq => hother heq

/-- Reading stops before the rule files of a directory only where a path is too long. -/
theorem StopsWith.exists_tooLong {e : FileFault} (h : StopsWith t dirs (.text (.file e))) :
    ∃ dir ∈ dirs, ∃ p, (p = dir ∨ ∃ name, p = dir.child name) ∧ t.stat p = .error .nameTooLong ∧
      e = ⟨.nameTooLong, p.text⟩ := by
  cases h with
  | unsearchable hdirs _ hfiles => exact ⟨_, by simp [hdirs], files_eq_error hfiles⟩

/-- **Which rule trees have their rules, or are refused by the name of a rule file**: those whose
reading does not stop at a path that is too long, at octets that are no text or at a scalar without
a value. -/
theorem ids_refused_iff {selector : LanguageSelector} {root : Path} :
    ((∃ found, ids t selector root = .ok found) ∨
        ∃ dir ∈ selector.ruleDirs root, ∃ path, IsRuleFile t dir path ∧
          ids t selector root = .error (.document (.refused (.ruleSyntax path.text)))) ↔
      (∀ e, ¬ StopsWith t (selector.ruleDirs root) (.text (.file e))) ∧
        ¬ StopsWith t (selector.ruleDirs root) (.text .notUtf8) ∧
        ∀ e, ¬ StopsWith t (selector.ruleDirs root) (.document (.scalar e)) := by
  simp only [← ids_eq_error_iff]
  cases hids : ids t selector root with
  | ok found => simp
  | error fault =>
    constructor
    · rintro (⟨found, hfound⟩ | ⟨dir, hdir, path, hrule, hfault⟩)
      · cases hfound
      · obtain rfl := Except.error.inj hfault
        simp
    · rintro ⟨hfile, hutf8, hscalar⟩
      cases ids_eq_error_iff.1 hids with
      | unsearchable => exact absurd rfl (hfile _)
      | notUtf8 => exact absurd rfl hutf8
      | unmade => exact absurd rfl (hscalar _)
      | malformed hat =>
        obtain ⟨dir, hdir, hrule⟩ := hat.exists_isRuleFile
        exact .inr ⟨dir, hdir, _, hrule, rfl⟩

end Rules

end LintReport
