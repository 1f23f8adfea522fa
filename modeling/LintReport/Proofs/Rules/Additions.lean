import LintReport.Proofs.Rules.Contents
import LintReport.Proofs.Rules.Copied

/-!
# Rules that are Added

What a directory describes is a matter of what the tree holds at its locations, so trees that list
the same entries in another order have the same rules, and a tree that keeps everything keeps its
rules. A rule file that is added is found in one rule directory only, since no two of them are at
one location. There it adds the ids of its documents, and everywhere else all stays as it was.

## Main definitions

* `Rules.Addition`: a tree that has got one more rule file.

## Main results

* `Rules.idSet_of_all`: every selection has its rules where all together have theirs.
* `Rules.described_congr`, `Rules.described_mono`: what is described by trees that hold the same, or
  more.
* `Rules.Addition.readable`, `Rules.Addition.described_eq`: **one more rule file** adds its ids.
* `Rules.idSet_depends_on_contents`: what the discovery of rules depends on.
-/

namespace LintReport

open FileTree (Location GainsFile locationOf eq_locationOf locationOf_child)
open LanguageSelector (sharedEntry ownEntry mem_entries_all up_notMem_entry)

namespace LanguageSelector

variable {selector : LanguageSelector} {root dir other : Path} {name last : String}

/-- Every rule directory is one of the selection of all languages. -/
theorem mem_ruleDirs_all (h : dir ∈ selector.ruleDirs root) : dir ∈ all.ruleDirs root := by
  obtain ⟨names, hnames, rfl⟩ := List.mem_map.1 h
  exact List.mem_map_of_mem (mem_entries_all hnames)

/-- Two names of rule directories are at one location only if both are the same. -/
theorem eq_of_child_eq (hdir : dir ∈ selector.ruleDirs root)
    (hother : other ∈ selector.ruleDirs root)
    (h : (locationOf dir).child name = (locationOf other).child last) :
    dir = other ∧ name = last := by
  obtain ⟨names, hnames, rfl⟩ := List.mem_map.1 hdir
  obtain ⟨more, hmore, rfl⟩ := List.mem_map.1 hother
  rw [FileTree.locationOf_descend (up_notMem_entry hnames),
    FileTree.locationOf_descend (up_notMem_entry hmore), Location.child_eq_descend,
    Location.child_eq_descend, Location.descend_descend, Location.descend_descend,
    Location.descend_inj] at h
  obtain ⟨rfl, hlast⟩ := List.append_inj' h rfl
  exact ⟨rfl, List.singleton_inj.1 hlast⟩

end LanguageSelector

namespace Rules

variable {t u : FileTree} {dir other root : Path} {selector : LanguageSelector} {name id : String}
  {documents : List Yaml.Value}

/-! ### Selections -/

/-- What a selection describes is what the directories of its languages describe. -/
theorem mem_described_iff :
    id ∈ described t selector root ↔ ∃ language ∈ selector.languages,
      Describes t (root.descend (sharedEntry language)) id ∨
        Describes t (root.descend (ownEntry language)) id := by
  simp only [described, LanguageSelector.ruleDirs, LanguageSelector.entries, Set.mem_ofPred_eq,
    List.mem_map, List.mem_flatMap, List.mem_cons, List.not_mem_nil, or_false]
  constructor
  · rintro ⟨_, ⟨_, ⟨language, hlanguage, rfl | rfl⟩, rfl⟩, h⟩
    · exact ⟨language, hlanguage, .inl h⟩
    · exact ⟨language, hlanguage, .inr h⟩
  · rintro ⟨language, hlanguage, h | h⟩
    · exact ⟨_, ⟨_, ⟨language, hlanguage, .inl rfl⟩, rfl⟩, h⟩
    · exact ⟨_, ⟨_, ⟨language, hlanguage, .inr rfl⟩, rfl⟩, h⟩

/-- Every selection has its rules where all together have theirs. -/
theorem idSet_of_all (h : ∀ dir ∈ LanguageSelector.all.ruleDirs root, Readable t dir)
    (selector : LanguageSelector) : idSet t selector root = .ok (described t selector root) :=
  idSet_eq_ok_iff.2 ⟨fun dir hdir => h dir (LanguageSelector.mem_ruleDirs_all hdir), rfl⟩

/-- All languages together describe what each of them describes. -/
theorem described_all (t : FileTree) (root : Path) :
    described t .all root =
      described t (.only .rust) root ∪ described t (.only .typescript) root := by
  ext id
  simp [mem_described_iff, LanguageSelector.languages]

/-! ### Trees that hold the same, or more -/

/-- Directories can be read in a tree that holds the same. -/
theorem Readable.congr (hsame : ∀ l, u.entry? l = t.entry? l) (h : Readable t dir) :
    Readable u dir where
  found := FileTree.look_congr hsame dir ▸ h.found
  listed l hl name hname := by
    rw [FileTree.stat_congr hsame] at hl
    rw [hsame] at hname
    rw [FileTree.look_congr hsame]
    exact h.listed l hl name hname
  loads name hname octets hread := by
    rw [FileTree.read_congr hsame] at hread
    obtain ⟨documents, hholds⟩ := h.loads name hname octets hread
    exact ⟨documents, (holds_congr fun _ => by rw [FileTree.read_congr hsame]).2 hholds⟩

/-- **A tree that keeps everything** keeps what its directories describe. -/
theorem described_mono (hkeeps : ∀ l e, t.entry? l = some e → u.entry? l = some e) :
    described t selector root ⊆ described u selector root := by
  rintro id ⟨dir, hdir, name, documents, hname, hholds, hidentifies⟩
  obtain ⟨octets, hread⟩ := hholds.exists_read
  have hkept : u.read (dir.child name) = .ok octets := by
    obtain ⟨l, executable, hresolve, hentry⟩ := FileTree.read_eq_ok_iff.1 hread
    exact FileTree.read_eq_ok_iff.2 ⟨l, executable,
      FileTree.resolve_mono (fun k => hkeeps k _) hresolve, hkeeps l _ hentry⟩
  refine ⟨dir, hdir, name, documents, hname, (holds_congr fun _ => ?_).2 hholds, hidentifies⟩
  rw [hkept, hread]

/-- **Trees that hold the same** describe the same. -/
theorem described_congr (hsame : ∀ l, u.entry? l = t.entry? l) :
    described u selector root = described t selector root :=
  Set.Subset.antisymm (described_mono fun l _ hl => (hsame l).symm.trans hl)
    (described_mono fun l _ hl => (hsame l).trans hl)

/-! ### One more rule file -/

/-- **One more rule file**: a tree that has got a file in a rule directory, with the name of a rule
file and with documents. -/
structure Addition (t u : FileTree) (root dir : Path) (name : String)
    (documents : List Yaml.Value) : Prop where
  directory : dir ∈ LanguageSelector.all.ruleDirs root
  named : NamesRuleFile name
  gains : GainsFile t u ((locationOf dir).child name)
  holds : Holds u (dir.child name) documents

namespace Addition

variable (h : Addition t u root dir name documents)

include h

/-- The new file is where its path leads. -/
theorem resolve : t.resolve (dir.child name) = .ok ((locationOf dir).child name) := by
  obtain ⟨octets, hread⟩ := h.holds.exists_read
  obtain ⟨l, executable, hresolve, -⟩ := FileTree.read_eq_ok_iff.1 hread
  rw [h.gains.resolve_iff] at hresolve
  rwa [← locationOf_child h.named.ne_up, ← eq_locationOf hresolve]

/-- No other rule file is at its location. -/
theorem eq_of_resolve (hother : other ∈ LanguageSelector.all.ruleDirs root) {last : String}
    (hlast : NamesRuleFile last)
    (hresolve : t.resolve (other.child last) = .ok ((locationOf dir).child name)) :
    other = dir ∧ last = name := by
  have hlocation := eq_locationOf hresolve
  rw [locationOf_child hlast.ne_up] at hlocation
  exact LanguageSelector.eq_of_child_eq hother h.directory hlocation.symm

/-- At any other path there are the documents that were there. -/
theorem holds_iff {path : Path}
    (hother : t.resolve path ≠ .ok ((locationOf dir).child name)) {found : List Yaml.Value} :
    Holds u path found ↔ Holds t path found :=
  holds_congr fun _ => h.gains.read_iff hother

/-- Rule directories can still be read. -/
theorem readable (hother : other ∈ LanguageSelector.all.ruleDirs root)
    (hreadable : Readable t other) : Readable u other where
  found := h.gains.exists_look_iff.2 hreadable.found
  listed l hl last hlast := by
    rw [h.gains.stat_directory_iff] at hl
    rw [h.gains.exists_look_iff]
    -- the new file is looked up by the path that it was written at
    by_cases hnew : l.child last = (locationOf dir).child name
    · obtain rfl := eq_locationOf (FileTree.stat_eq_ok_iff.1 hl).1
      obtain ⟨rfl, rfl⟩ := LanguageSelector.eq_of_child_eq hother h.directory hnew
      exact FileTree.exists_look_iff.2 (by rw [h.resolve]; nofun)
    · rw [h.gains.elsewhere _ hnew] at hlast
      exact hreadable.listed l hl last hlast
  loads last hlast octets hread := by
    by_cases hnew : t.resolve (other.child last) = .ok ((locationOf dir).child name)
    · obtain ⟨rfl, rfl⟩ := h.eq_of_resolve hother hlast hnew
      exact ⟨documents, h.holds⟩
    · rw [h.gains.read_iff hnew] at hread
      obtain ⟨found, hfound⟩ := hreadable.loads last hlast octets hread
      exact ⟨found, (h.holds_iff hnew).2 hfound⟩

/-- What a rule directory describes after one more rule file has come. -/
theorem describes_iff (hother : other ∈ LanguageSelector.all.ruleDirs root) :
    Describes u other id ↔
      Describes t other id ∨ other = dir ∧ ∃ document ∈ documents, Identifies document id := by
  constructor
  · rintro ⟨last, found, hlast, hfound, hidentifies⟩
    by_cases hnew : t.resolve (other.child last) = .ok ((locationOf dir).child name)
    · obtain ⟨rfl, rfl⟩ := h.eq_of_resolve hother hlast hnew
      exact .inr ⟨rfl, h.holds.unique hfound ▸ hidentifies⟩
    · exact .inl ⟨last, found, hlast, (h.holds_iff hnew).1 hfound, hidentifies⟩
  · rintro (⟨last, found, hlast, hfound, hidentifies⟩ | ⟨rfl, hidentifies⟩)
    · refine ⟨last, found, hlast, (h.holds_iff ?_).2 hfound, hidentifies⟩
      -- nothing was where the new file is
      intro hnew
      obtain ⟨octets, hread⟩ := hfound.exists_read
      rw [FileTree.read_of_resolve hnew, h.gains.nothing] at hread
      cases hread
    · exact ⟨name, documents, h.named, h.holds, hidentifies⟩

/-- **One more rule file** adds its ids to the selections that have its directory. -/
theorem described_eq (selector : LanguageSelector) :
    described u selector root = described t selector root ∪
      {id | dir ∈ selector.ruleDirs root ∧ ∃ document ∈ documents, Identifies document id} := by
  ext id
  simp only [described, Set.mem_union, Set.mem_ofPred_eq]
  constructor
  · rintro ⟨other, hother, hdescribes⟩
    obtain hold | ⟨rfl, hidentifies⟩ :=
      (h.describes_iff (LanguageSelector.mem_ruleDirs_all hother)).1 hdescribes
    · exact .inl ⟨other, hother, hold⟩
    · exact .inr ⟨hother, hidentifies⟩
  · rintro (⟨other, hother, hold⟩ | ⟨hdir, hidentifies⟩)
    · exact ⟨other, hother,
        (h.describes_iff (LanguageSelector.mem_ruleDirs_all hother)).2 (.inl hold)⟩
    · exact ⟨dir, hdir, (h.describes_iff h.directory).2 (.inr ⟨rfl, hidentifies⟩)⟩

end Addition

/-- A rule file that is written where nothing was is an addition, if it has documents. -/
theorem Addition.of_write (hdir : dir ∈ LanguageSelector.all.ruleDirs root)
    (hname : NamesRuleFile name) (hnew : t.pathExists (dir.child name) = false)
    {octets : List UInt8} (hwrite : t.write (dir.child name) octets = .ok u)
    (hholds : Holds u (dir.child name) documents) : Addition t u root dir name documents := by
  obtain ⟨l, hresolve, hgains⟩ := GainsFile.of_write hnew hwrite
  obtain rfl := (eq_locationOf hresolve).trans (locationOf_child hname.ne_up)
  exact ⟨hdir, hname, hgains, hholds⟩

/-! ### What is discovered -/

/-- **The discovery of rules depends on what the tree contains, and on nothing else.** Where it
gives the ids of all languages,

* it gives those of every selection, and they are the ids of the documents in the rule files that
  lie directly in the directories of its languages;
* it gives the same for every tree that holds the same, in whatever order the entries are listed;
* the ids of all languages are those of the one and those of the other;
* no id is lost in a tree that keeps everything, if it has ids;
* one more rule file that can be read adds the ids of its documents and takes none away. -/
theorem idSet_depends_on_contents {found : List String} (h : ids t .all root = .ok found) :
    (∀ selector, idSet t selector root = .ok {id | ∃ language ∈ selector.languages,
      Describes t (root.descend (sharedEntry language)) id ∨
        Describes t (root.descend (ownEntry language)) id}) ∧
    (∀ selector u, (∀ l, u.entry? l = t.entry? l) →
      idSet u selector root = idSet t selector root) ∧
    (∃ rust typescript, idSet t (.only .rust) root = .ok rust ∧
      idSet t (.only .typescript) root = .ok typescript ∧
      idSet t .all root = .ok (rust ∪ typescript)) ∧
    (∀ selector u before after, (∀ l e, t.entry? l = some e → u.entry? l = some e) →
      idSet t selector root = .ok before → idSet u selector root = .ok after → before ⊆ after) ∧
    ∀ dir ∈ LanguageSelector.all.ruleDirs root, ∀ name octets u documents, NamesRuleFile name →
      t.pathExists (dir.child name) = false → t.write (dir.child name) octets = .ok u →
      Holds u (dir.child name) documents →
      ∀ selector before, idSet t selector root = .ok before → idSet u selector root = .ok (before ∪
        {id | dir ∈ selector.ruleDirs root ∧ ∃ document ∈ documents, Identifies document id}) := by
  have hreadable := (idSet_eq_ok_iff.1 (idSet_of_ids h)).1
  have hids := idSet_of_all hreadable
  refine ⟨fun selector => ?_, fun selector u hsame => ?_, ?_, ?_, ?_⟩
  · rw [hids]
    exact congrArg Except.ok (Set.ext fun id => mem_described_iff)
  · rw [hids, ← described_congr hsame]
    exact idSet_of_all (fun dir hdir => (hreadable dir hdir).congr hsame) selector
  · exact ⟨_, _, hids _, hids _, by rw [hids, described_all]⟩
  · intro selector u before after hkeeps hbefore hafter
    rw [(idSet_eq_ok_iff.1 hbefore).2, (idSet_eq_ok_iff.1 hafter).2]
    exact described_mono hkeeps
  · intro dir hdir name octets u documents hname hnew hwrite hholds selector before hbefore
    have hadded := Addition.of_write hdir hname hnew hwrite hholds
    rw [(idSet_eq_ok_iff.1 hbefore).2, ← hadded.described_eq]
    exact idSet_of_all (fun other hother => hadded.readable hother (hreadable other hother))
      selector

/-- Rules of both languages: two in one file, one with blanks around its id; a mapping without an
id; and a file with another suffix, which is not well-formed. -/
def mixedRules : FileTree where
  entries := [
    (⟨.top, ["rules"]⟩, .directory),
    (⟨.top, ["rules", "shared"]⟩, .directory),
    (⟨.top, ["rules", "shared", "rust"]⟩, .directory),
    (⟨.top, ["rules", "shared", "rust", "p.yml"]⟩,
      .file (Text.Utf8.encode "id: ' a '\n---\nid: b\n") false),
    (⟨.top, ["rules", "typescript"]⟩, .directory),
    (⟨.top, ["rules", "typescript", "notes.txt"]⟩, .file (Text.Utf8.encode "id: [") false),
    (⟨.top, ["rules", "typescript", "q.yaml"]⟩,
      .file (Text.Utf8.encode "id: a\n---\nx: c\n") false)]

/-- The same rules and one more. -/
def moreRules : FileTree :=
  mixedRules.put ⟨.top, ["rules", "typescript", "r.yml"]⟩ (.file (Text.Utf8.encode "id: d\n") false)

/-- The ids of the rules of both languages are found in every order, and one that is added is found
with those of its own language. -/
theorem mixedRules_discovered :
    ids mixedRules .all ⟨.top, ["rules"]⟩ = .ok ["a", "b", "a"] ∧
      idSet ⟨mixedRules.entries.reverse⟩ .all ⟨.top, ["rules"]⟩ = .ok {"a", "b"} ∧
      mixedRules.write ⟨.top, ["rules", "typescript", "r.yml"]⟩ (Text.Utf8.encode "id: d\n") =
        .ok moreRules ∧
      idSet moreRules (.only .rust) ⟨.top, ["rules"]⟩ = .ok {"a", "b"} ∧
      idSet moreRules (.only .typescript) ⟨.top, ["rules"]⟩ = .ok {"a", "d"} := by
  have hids : ids mixedRules .all ⟨.top, ["rules"]⟩ = .ok ["a", "b", "a"] := by decide +kernel
  have hrust : ids mixedRules (.only .rust) ⟨.top, ["rules"]⟩ = .ok ["a", "b"] := by decide +kernel
  have htypescript : ids mixedRules (.only .typescript) ⟨.top, ["rules"]⟩ = .ok ["a"] := by
    decide +kernel
  obtain ⟨-, horder, -, -, hadded⟩ := idSet_depends_on_contents hids
  have hwrite : mixedRules.write ⟨.top, ["rules", "typescript", "r.yml"]⟩
      (Text.Utf8.encode "id: d\n") = .ok moreRules := by
    have hresolve : mixedRules.resolve ⟨.top, ["rules", "typescript", "r.yml"]⟩ =
        .ok ⟨.top, ["rules", "typescript", "r.yml"]⟩ := by decide +kernel
    rw [FileTree.write, FileTree.modify_of_resolve hresolve]
    rfl
  have hfile : idsOfFile moreRules ⟨.top, ["rules", "typescript", "r.yml"]⟩ = .ok ["d"] := by
    decide +kernel
  obtain ⟨documents, hholds, hfound⟩ := idsOfFile_eq_ok_iff.1 hfile
  have hd (id : String) : (∃ document ∈ documents, Identifies document id) ↔ id = "d" := by
    rw [← List.mem_singleton, hfound, List.mem_filterMap]
    simp only [idOf?_eq_some_iff]
  have hmore := hadded ⟨.top, ["rules", "typescript"]⟩ (by decide) "r.yml" _ moreRules documents
    ⟨"r", by decide, .inl rfl⟩ (by decide +kernel) hwrite hholds
  have hother : (⟨.top, ["rules", "typescript"]⟩ : Path) ∉
      (LanguageSelector.only .rust).ruleDirs ⟨.top, ["rules"]⟩ := by decide
  have hown : (⟨.top, ["rules", "typescript"]⟩ : Path) ∈
      (LanguageSelector.only .typescript).ruleDirs ⟨.top, ["rules"]⟩ := by decide
  refine ⟨hids, ?_, hwrite, ?_, ?_⟩
  · rw [horder .all ⟨mixedRules.entries.reverse⟩
      (FileTree.entry?_of_perm (List.reverse_perm _) (by decide)), idSet_of_ids hids]
    exact congrArg Except.ok (by ext id; simp [or_comm])
  · rw [hmore (.only .rust) _ (idSet_of_ids hrust)]
    exact congrArg Except.ok (by ext id; simp [hd, hother])
  · rw [hmore (.only .typescript) _ (idSet_of_ids htypescript)]
    exact congrArg Except.ok (by ext id; simp [hd, hown, or_comm])

end Rules

end LintReport
