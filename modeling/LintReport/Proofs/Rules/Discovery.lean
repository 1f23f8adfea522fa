import LintReport.Proofs.FileTree.Looking
import LintReport.Proofs.Loop
import LintReport.Rules.Catalogue
import Mathlib.Data.String.Basic

/-!
# The Rules that are Found

The rules of a directory are those of the rule files that lie directly in it. What is found depends
on the names and the contents of these files only, neither on the order in which they were made nor
on the path of the directory.

## Main definitions

* `Rules.ruleNames`: the names of the rule files in a directory, in order.
* `Rules.Listable`: a directory whose entries can all be looked up.

## Main results

* `Rules.mem_of_files`, `Rules.exists_files_iff`: **the rule files of a directory**, and when they
  can be told.
* `Rules.Listable.files_eq`: the rule files of a directory whose entries can all be looked up.
* `Rules.idsOfDirectory_eq_ok_iff`, `Rules.ids_eq_ok_iff`: the ids of a directory, and of a
  selection.
* `Rules.idsOfDirectory_of_same`: **directories with the same entries have the same rules**.
* `Rules.idsOfDirectory_of_usable`: so has a copy whose entries have paths that can be used.
* `Rules.ids_of_forall`: so have rule trees with the same directories.
-/

namespace LintReport

/-! ### Rule files -/

namespace Rules

open FileTree (Location)

variable {t : FileTree} {l s c : Location} {dir copy path : Path} {paths : List Path}

/-- Names in another order are the same names in order. -/
theorem inNameOrder_of_perm {names others : List String} (h : names.Perm others) :
    inNameOrder names = inNameOrder others := by
  have hle (a b : String) : (!decide (b < a)) = true ↔ a ≤ b := by
    rw [Bool.not_eq_true', decide_eq_false_iff_not, not_lt]
  have hsorted (names : List String) : (inNameOrder names).Pairwise (· ≤ ·) := by
    refine (List.pairwise_mergeSort (fun a b c hab hbc => ?_) (fun a b => ?_) names).imp
      fun h => (hle _ _).1 h
    · exact (hle a c).2 (le_trans ((hle a b).1 hab) ((hle b c).1 hbc))
    · rw [Bool.or_eq_true, hle, hle]
      exact le_total a b
  refine List.Perm.eq_of_pairwise (fun _ _ _ _ => le_antisymm) (hsorted names) (hsorted others) ?_
  exact (List.mergeSort_perm names _).trans (h.trans (List.mergeSort_perm others _).symm)

/-- The rule files of a directory are chosen from its names. -/
theorem files_of_stat (hdir : t.stat dir = .ok (l, .directory)) :
    files t dir = ((t.namesIn l).filterM fun name => t.hasFile (dir.child name)).map fun names =>
      (inNameOrder (names.filter isRuleName)).map dir.child := by
  have hlook : t.look dir = .ok (some (l, .directory)) := by rw [FileTree.look, hdir]
  rw [files, hlook]
  dsimp only [bind, Except.bind]
  cases (t.namesIn l).filterM fun name => t.hasFile (dir.child name) <;> rfl

/-- What can be looked up and is no directory has no rule files. -/
theorem files_of_not_directory {what : Option (Location × FileTree.Entry)}
    (hlook : t.look dir = .ok what) (hnot : ∀ l, t.stat dir ≠ .ok (l, .directory)) :
    files t dir = .ok [] := by
  rw [files, hlook]
  dsimp only [bind, Except.bind]
  split
  · next l => exact absurd (FileTree.stat_of_look hlook) (hnot l)
  · rfl

/-- No rule file is named as what goes up. -/
theorem ne_up_of_isRuleName {name : String} (h : isRuleName name = true) : name ≠ ".." := by
  rintro rfl
  exact absurd h (by decide)

/-- **The rule files of a directory** are the files in it with the name of one. -/
theorem mem_of_files (h : files t dir = .ok paths) :
    path ∈ paths ↔ ∃ name, isRuleName name = true ∧ path = dir.child name ∧
      ∃ octets, t.read path = .ok octets := by
  by_cases hdir : ∃ l, t.stat dir = .ok (l, .directory)
  · obtain ⟨l, hdir⟩ := hdir
    rw [files_of_stat hdir] at h
    cases hnames : (t.namesIn l).filterM fun name => t.hasFile (dir.child name) with
    | error fault =>
      rw [hnames] at h
      cases h
    | ok names =>
      rw [hnames] at h
      obtain rfl := Except.ok.inj h
      simp only [List.mem_map, inNameOrder, List.mem_mergeSort, List.mem_filter,
        mem_filterM_iff hnames, FileTree.hasFile_iff]
      constructor
      · rintro ⟨name, ⟨⟨-, hread⟩, hname⟩, rfl⟩
        exact ⟨name, hname, rfl, hread⟩
      · rintro ⟨name, hname, rfl, octets, hread⟩
        obtain ⟨k, hk, hmem⟩ := FileTree.exists_stat_of_read_child (ne_up_of_isRuleName hname) hread
        obtain ⟨rfl, -⟩ := Prod.mk.inj (Except.ok.inj (hdir.symm.trans hk))
        exact ⟨name, ⟨⟨hmem, octets, hread⟩, hname⟩, rfl⟩
  · rw [not_exists] at hdir
    cases hlook : t.look dir with
    | error fault =>
      rw [files, hlook] at h
      cases h
    | ok what =>
      rw [files_of_not_directory hlook hdir] at h
      obtain rfl := Except.ok.inj h
      refine iff_of_false List.not_mem_nil ?_
      rintro ⟨name, hname, rfl, octets, hread⟩
      obtain ⟨l, hl, -⟩ := FileTree.exists_stat_of_read_child (ne_up_of_isRuleName hname) hread
      exact hdir l hl

/-- The rule files of a directory can be told just if it and what lies in it can be looked up. -/
theorem exists_files_iff :
    (∃ paths, files t dir = .ok paths) ↔ (∃ what, t.look dir = .ok what) ∧
      ∀ l, t.stat dir = .ok (l, .directory) → ∀ name, (t.entry? (l.child name)).isSome = true →
        ∃ what, t.look (dir.child name) = .ok what := by
  by_cases hdir : ∃ l, t.stat dir = .ok (l, .directory)
  · obtain ⟨l, hdir⟩ := hdir
    have hnames : (∃ paths, files t dir = .ok paths) ↔
        ∃ names, ((t.namesIn l).filterM fun name => t.hasFile (dir.child name)) = .ok names := by
      rw [files_of_stat hdir]
      cases (t.namesIn l).filterM fun name => t.hasFile (dir.child name) <;> simp [Except.map]
    have hlook : ∃ what, t.look dir = .ok what := ⟨_, by rw [FileTree.look, hdir]⟩
    rw [hnames, exists_filterM_iff, and_iff_right hlook]
    simp only [FileTree.mem_namesIn, FileTree.exists_hasFile_iff, hdir, Except.ok.injEq,
      Prod.mk.injEq, and_true, forall_eq']
  · rw [not_exists] at hdir
    rw [and_iff_left fun l hl => absurd hl (hdir l)]
    constructor
    · rintro ⟨paths, h⟩
      cases hlook : t.look dir with
      | ok what => exact ⟨what, rfl⟩
      | error fault =>
        rw [files, hlook] at h
        cases h
    · rintro ⟨what, hlook⟩
      exact ⟨[], files_of_not_directory hlook hdir⟩

/-! ### Listings -/

/-- The names of the rule files in a directory, in order. -/
def ruleNames (t : FileTree) (l : Location) : List String :=
  inNameOrder (((t.namesIn l).filter fun name => t.isFile (l.child name)).filter isRuleName)

theorem mem_ruleNames {name : String} :
    name ∈ ruleNames t l ↔ t.isFile (l.child name) = true ∧ isRuleName name = true := by
  have hnamed : t.isFile (l.child name) = true → name ∈ t.namesIn l := by
    intro hfile
    obtain ⟨content, executable, hentry⟩ := FileTree.isFile_iff.1 hfile
    exact FileTree.mem_namesIn.2 (by rw [hentry]; rfl)
  rw [ruleNames, inNameOrder, List.mem_mergeSort, List.mem_filter, List.mem_filter]
  exact ⟨fun ⟨⟨_, hfile⟩, hrule⟩ => ⟨hfile, hrule⟩,
    fun ⟨hfile, hrule⟩ => ⟨⟨hnamed hfile, hfile⟩, hrule⟩⟩

/-- Whether a path leads to a directory whose entries can all be looked up by their names. -/
structure Listable (t : FileTree) (dir : Path) (l : Location) : Prop where
  directory : t.stat dir = .ok (l, .directory)
  short : ∀ name ∈ t.namesIn l, name.utf8ByteSize ≤ FileTree.nameLimit
  usable : ∀ name ∈ t.namesIn l, (dir.child name).IsUsable

/-- The rule files of a directory whose entries can all be looked up. -/
theorem Listable.files_eq (h : Listable t dir l) (ht : t.IsTree) :
    files t dir = .ok ((ruleNames t l).map dir.child) := by
  have hfiles : ∀ name ∈ t.namesIn l,
      t.hasFile (dir.child name) = .ok (t.isFile (l.child name)) := fun name hname =>
    ht.hasFile_child h.directory (ht.ne_of_mem_namesIn hname) (h.short name hname)
      (h.usable name hname)
  rw [files_of_stat h.directory, filterM_of_forall hfiles]
  rfl

/-- The entries of a directory can be looked up if its rule files are found. -/
theorem listable_of_files (ht : t.IsTree) (hdir : t.stat dir = .ok (l, .directory))
    (hnull : ∀ name ∈ t.namesIn l, '\x00' ∉ name.toList)
    (h : files t dir = .ok paths) : Listable t dir l := by
  have hlooked (name : String) (hname : name ∈ t.namesIn l) :
      ∃ what, t.look (dir.child name) = .ok what :=
    (exists_files_iff.1 ⟨paths, h⟩).2 l hdir name (FileTree.mem_namesIn.1 hname)
  refine ⟨hdir, fun name hname => ?_, fun name hname => ?_⟩
  · obtain ⟨what, hwhat⟩ := hlooked name hname
    exact FileTree.size_of_look_child hdir (ht.ne_of_mem_namesIn hname) (hnull name hname) hwhat
  · obtain ⟨what, hwhat⟩ := hlooked name hname
    exact FileTree.isUsable_of_look_child hdir (hnull name hname) hwhat

/-- Directories with the same entries have rule files with the same names. -/
theorem ruleNames_of_same (ht : t.IsTree)
    (hsame : ∀ name, t.entry? (c.child name) = t.entry? (s.child name)) :
    ruleNames t c = ruleNames t s := by
  have hnames : (t.namesIn c).Perm (t.namesIn s) := by
    refine (List.perm_ext_iff_of_nodup (ht.nodup_namesIn c) (ht.nodup_namesIn s)).2 fun name => ?_
    rw [FileTree.mem_namesIn, FileTree.mem_namesIn, hsame]
  have hfiles : (fun name => t.isFile (c.child name)) = fun name => t.isFile (s.child name) := by
    funext name
    rw [FileTree.isFile, FileTree.isFile, hsame]
  rw [ruleNames, ruleNames, hfiles]
  exact inNameOrder_of_perm ((hnames.filter _).filter _)

/-! ### Ids -/

/-- The ids of a directory are those of its rule files. -/
theorem idsOfDirectory_eq_ok_iff {found : List String} :
    idsOfDirectory t dir = .ok found ↔ ∃ paths lists, files t dir = .ok paths ∧
      paths.mapM (idsOfFile t) = .ok lists ∧ found = lists.flatten := by
  rw [idsOfDirectory]
  cases files t dir with
  | error fault => simp [Except.mapError, bind, Except.bind]
  | ok paths =>
    dsimp only [Except.mapError, bind, Except.bind]
    cases hlists : paths.mapM (idsOfFile t) <;> simp [hlists, pure, Except.pure, eq_comm]

/-- The ids of a selection are those of its directories. -/
theorem ids_eq_ok_iff {selector : LanguageSelector} {root : Path} {found : List String} :
    ids t selector root = .ok found ↔ ∃ lists,
      (selector.ruleDirs root).mapM (idsOfDirectory t) = .ok lists ∧ found = lists.flatten := by
  rw [ids]
  cases (selector.ruleDirs root).mapM (idsOfDirectory t) <;>
    simp [bind, Except.bind, pure, Except.pure, eq_comm]

/-- Files with the same octets have the same ids, if they have any. -/
theorem idsOfFile_of_read {p q : Path} (hread : t.read q = t.read p) {octets : List UInt8}
    (hp : t.read p = .ok octets) {found : List String} (h : idsOfFile t p = .ok found) :
    idsOfFile t q = .ok found := by
  rw [idsOfFile, FileTree.readText, hp] at h
  rw [idsOfFile, FileTree.readText, hread, hp]
  dsimp only at h ⊢
  cases hdecode : Text.Utf8.decodeChars? octets with
  | none =>
    rw [hdecode] at h
    cases h
  | some cs =>
    rw [hdecode] at h
    dsimp only at h ⊢
    rw [idsOfText] at h ⊢
    cases hload : Yaml.loadAll (String.ofList (Text.unifyNewlines cs)) with
    | error fault =>
      rw [hload] at h
      cases h
    | ok documents =>
      rw [hload] at h
      exact h

/-- A rule file is read by the path of its directory. -/
theorem Listable.exists_read (h : Listable t dir l) (ht : t.IsTree) {name : String}
    (hname : name ∈ ruleNames t l) :
    ∃ octets executable, t.entry? (l.child name) = some (.file octets executable) ∧
      t.read (dir.child name) = .ok octets := by
  obtain ⟨octets, executable, hentry⟩ := FileTree.isFile_iff.1 (mem_ruleNames.1 hname).1
  have hnamed := FileTree.mem_namesIn.2 (by rw [hentry]; rfl)
  have hresolve := FileTree.resolve_child h.directory (ht.ne_of_mem_namesIn hnamed)
    (h.short name hnamed) (h.usable name hnamed)
  refine ⟨octets, executable, hentry, ?_⟩
  rw [FileTree.read_of_resolve hresolve, hentry]

/-- **Directories with the same entries have the same rules**, if all entries of both can be looked
up. -/
theorem idsOfDirectory_of_same (ht : t.IsTree) (hdir : Listable t dir s)
    (hcopy : Listable t copy c)
    (hsame : ∀ name, t.entry? (c.child name) = t.entry? (s.child name)) {found : List String}
    (h : idsOfDirectory t dir = .ok found) : idsOfDirectory t copy = .ok found := by
  obtain ⟨_, lists, hfiles, hlists, rfl⟩ := idsOfDirectory_eq_ok_iff.1 h
  obtain rfl := Except.ok.inj ((hdir.files_eq ht).symm.trans hfiles)
  refine idsOfDirectory_eq_ok_iff.2 ⟨_, lists, hcopy.files_eq ht, ?_, rfl⟩
  rw [List.mapM_map] at hlists
  rw [ruleNames_of_same ht hsame, List.mapM_map]
  refine mapM_of_forall (fun name hname found hfound => ?_) hlists
  obtain ⟨octets, executable, hentry, hread⟩ := hdir.exists_read ht hname
  rw [← ruleNames_of_same ht hsame] at hname
  obtain ⟨octets', executable', hentry', hread'⟩ := hcopy.exists_read ht hname
  rw [hsame, hentry] at hentry'
  cases hentry'
  exact idsOfFile_of_read (hread'.trans hread.symm) hread hfound

/-- **A copy of a directory has its rules**, if the paths of the copied entries can be used. -/
theorem idsOfDirectory_of_usable (ht : t.IsTree) (hdir : t.stat dir = .ok (s, .directory))
    (hcopy : t.stat copy = .ok (c, .directory))
    (hsame : ∀ name, t.entry? (c.child name) = t.entry? (s.child name))
    (husable : ∀ name, (t.entry? (c.child name)).isSome = true → (copy.child name).IsUsable)
    {found : List String} (h : idsOfDirectory t dir = .ok found) :
    idsOfDirectory t copy = .ok found := by
  have hnamed {name : String} : name ∈ t.namesIn c ↔ name ∈ t.namesIn s := by
    rw [FileTree.mem_namesIn, FileTree.mem_namesIn, hsame]
  have hnull : ∀ name ∈ t.namesIn s, '\x00' ∉ name.toList := fun name hname =>
    (husable name (FileTree.mem_namesIn.1 (hnamed.2 hname))).noNull name
      (List.mem_append_right _ (List.mem_singleton_self name))
  obtain ⟨paths, _, hfiles, -⟩ := idsOfDirectory_eq_ok_iff.1 h
  have hlistable : Listable t dir s := listable_of_files ht hdir hnull hfiles
  have hlistableCopy : Listable t copy c :=
    ⟨hcopy, fun name hname => hlistable.short name (hnamed.1 hname),
      fun name hname => husable name (FileTree.mem_namesIn.1 hname)⟩
  exact idsOfDirectory_of_same ht hlistable hlistableCopy hsame h

/-- What can be looked up and is no directory has no rules. -/
theorem idsOfDirectory_of_not_isDirectory {what : Option (Location × FileTree.Entry)}
    (hlook : t.look dir = .ok what) (hnot : t.isDirectory dir = false) :
    idsOfDirectory t dir = .ok [] := by
  have hfiles : files t dir = .ok [] := files_of_not_directory hlook fun l hl => by
    rw [FileTree.isDirectory, hl] at hnot
    cases hnot
  exact idsOfDirectory_eq_ok_iff.2 ⟨[], [], hfiles, rfl, rfl⟩

/-- A directory whose rules are found can be looked up. -/
theorem exists_look_of_idsOfDirectory {found : List String}
    (h : idsOfDirectory t dir = .ok found) : ∃ what, t.look dir = .ok what := by
  obtain ⟨paths, _, hfiles, -⟩ := idsOfDirectory_eq_ok_iff.1 h
  exact (exists_files_iff.1 ⟨paths, hfiles⟩).1

/-- **Rule trees with the same directories have the same rules.** -/
theorem ids_of_forall {selector : LanguageSelector} {root : Path}
    (hsame : ∀ names ∈ selector.entries, ∀ found,
      idsOfDirectory t (root.descend names) = .ok found →
      idsOfDirectory t (copy.descend names) = .ok found)
    {found : List String} (h : ids t selector root = .ok found) :
    ids t selector copy = .ok found := by
  obtain ⟨lists, hlists, rfl⟩ := ids_eq_ok_iff.1 h
  refine ids_eq_ok_iff.2 ⟨lists, ?_, rfl⟩
  rw [LanguageSelector.ruleDirs, List.mapM_map] at hlists ⊢
  exact mapM_of_forall hsame hlists

end Rules

end LintReport
