import LintReport.Proofs.Rules.Faults
import LintReport.Proofs.Text.Blank
import Mathlib.Data.Set.Lattice

/-!
# The Rules that a Tree Contains

The rule directories of a selection, the rule files in each of them and the documents in each of
these are gone through in three loops, one inside the other, and every one of them skips what it
does not want. All in all they collect a set that can be said without any of them: an id is in it
just if a document in a rule file that lies directly in a rule directory has that id. Whether there
is such a set is told by each directory alone.

## Main definitions

* `Rules.NamesRuleFile`, `Rules.Identifies`: the names of rule files, and the documents with an id.
* `Rules.Holds`: the documents in a file.
* `Rules.Describes`: whether a directory has a rule of an id.
* `Rules.Readable`: the directories whose rules can be read.
* `Rules.idSet`: the ids of a selection as a set.

## Main results

* `Path.suffixOf_eq_iff`: when a name has a suffix.
* `Rules.isRuleName_iff`, `Rules.idOf?_eq_some_iff`: which names and which documents count.
* `Rules.mem_of_idsOfDirectory`, `Rules.exists_idsOfDirectory_iff`: **the ids of a directory**, and
  when they can be told.
* `Rules.idSet_eq_ok_iff`: **the ids of a selection**.
-/

namespace LintReport

/-! ### Suffixes -/

namespace Path

/-- The suffix of a name that has a point and then none. -/
theorem suffixOf_append (stem : List Char) {rest : List Char} (hrest : '.' ∉ rest) :
    suffixOf (stem ++ '.' :: rest) = if stem = [] ∨ rest = [] then [] else '.' :: rest := by
  have htail : (stem ++ '.' :: rest).reverse.takeWhile (· != '.') = rest.reverse := by
    have hnot : ∀ c ∈ rest.reverse, (c != '.') = true := fun c hc =>
      bne_iff_ne.2 fun hpoint => hrest (hpoint ▸ List.mem_reverse.1 hc)
    rw [List.reverse_append, List.reverse_cons, List.append_assoc,
      List.takeWhile_append_of_pos hnot]
    simp
  rw [suffixOf, htail]
  simp only [List.length_reverse, List.length_append, List.length_cons, List.reverse_reverse]
  refine if_congr ?_ rfl rfl
  rw [Bool.or_eq_true, beq_iff_eq, decide_eq_true_eq, List.length_eq_zero_iff, or_comm]
  refine or_congr_left ?_
  rw [← List.length_eq_zero_iff]
  omega

/-- A name has a suffix just if it ends in it and has something before it. -/
theorem suffixOf_eq_iff {name rest : List Char} (hrest : '.' ∉ rest) (hne : rest ≠ []) :
    suffixOf name = '.' :: rest ↔ ∃ stem, stem ≠ [] ∧ name = stem ++ '.' :: rest := by
  constructor
  · intro h
    obtain ⟨stem, rfl⟩ := h ▸ Rules.suffixOf_isSuffix name
    refine ⟨stem, ?_, rfl⟩
    rintro rfl
    rw [suffixOf_append [] hrest, if_pos (.inl rfl)] at h
    cases h
  · rintro ⟨stem, hstem, rfl⟩
    rw [suffixOf_append stem hrest, if_neg (by simp [hstem, hne])]

end Path

namespace Rules

variable {t u : FileTree} {dir path root : Path} {selector : LanguageSelector} {name id : String}

/-- **Whether a name is that of a rule file**: it has one of two suffixes, and something before
it. -/
def NamesRuleFile (name : String) : Prop :=
  ∃ stem, stem ≠ "" ∧ (name = stem ++ ".yml" ∨ name = stem ++ ".yaml")

theorem isRuleName_iff : isRuleName name = true ↔ NamesRuleFile name := by
  have hnamed {rest : List Char} (hrest : '.' ∉ rest) (hne : rest ≠ []) :
      String.ofList (Path.suffixOf name.toList) = String.ofList ('.' :: rest) ↔
        ∃ stem, stem ≠ "" ∧ name = stem ++ String.ofList ('.' :: rest) := by
    rw [String.ofList_inj, Path.suffixOf_eq_iff hrest hne]
    constructor
    · rintro ⟨stem, hstem, hname⟩
      refine ⟨String.ofList stem, by simpa using hstem, ?_⟩
      rw [← String.ofList_append, ← hname, String.ofList_toList]
    · rintro ⟨stem, hstem, rfl⟩
      exact ⟨stem.toList, by simpa using hstem, by simp⟩
  rw [isRuleName, List.contains_iff_mem, List.mem_cons, List.mem_singleton]
  simp only [NamesRuleFile, and_or_left, exists_or]
  exact or_congr (hnamed (by decide) (by decide)) (hnamed (by decide) (by decide))

/-- **Whether a document has an id**: it is a mapping whose member of that name is a string, and the
id is what is left of it without blanks around it. -/
def Identifies (document : Yaml.Value) (id : String) : Prop :=
  ∃ node s, document.member? "id" = some node ∧ document.str? node = some s ∧ Text.trim s = id ∧
    id ≠ ""

theorem idOf?_eq_some_iff {document : Yaml.Value} :
    idOf? document = some id ↔ Identifies document id := by
  have hleft (s : String) :
      (if Text.isBlankText s = true then none else some (Text.trim s)) = some id ↔
        Text.trim s = id ∧ id ≠ "" := by
    rw [Option.ite_none_left_eq_some, ← Text.trim_eq_empty_iff, Option.some.injEq, and_comm]
    exact and_congr_right fun h => by rw [h]
  simp only [idOf?, Option.bind_eq_bind, Option.bind_eq_some_iff, hleft, Identifies,
    exists_and_left]

/-! ### Files -/

/-- The documents in the file at a path. -/
def Holds (t : FileTree) (path : Path) (documents : List Yaml.Value) : Prop :=
  ∃ text, t.readText path = .ok text ∧ Yaml.loadAll text = .ok documents

/-- A file holds one list of documents. -/
theorem Holds.unique {documents others : List Yaml.Value} (h : Holds t path documents)
    (h' : Holds t path others) : documents = others := by
  obtain ⟨text, htext, hload⟩ := h
  obtain ⟨text', htext', hload'⟩ := h'
  obtain rfl : text = text' := Except.ok.inj (htext.symm.trans htext')
  exact Except.ok.inj (hload.symm.trans hload')

/-- The ids in a file are those of its documents. -/
theorem idsOfFile_eq_ok_iff {found : List String} :
    idsOfFile t path = .ok found ↔
      ∃ documents, Holds t path documents ∧ found = documents.filterMap idOf? := by
  simp only [idsOfFile, Holds]
  cases t.readText path with
  | error fault => simp
  | ok text =>
    dsimp only
    rw [idsOfText]
    cases hload : Yaml.loadAll text with
    | error fault => simp [hload]
    | ok documents => simp [hload, eq_comm]

/-- Files with the same octets have the same documents. -/
theorem holds_congr (h : ∀ octets, u.read path = .ok octets ↔ t.read path = .ok octets)
    {documents : List Yaml.Value} : Holds u path documents ↔ Holds t path documents := by
  have htext (t : FileTree) (text : String) : t.readText path = .ok text ↔
      ∃ octets cs, t.read path = .ok octets ∧ Text.Utf8.decodeChars? octets = some cs ∧
        String.ofList (Text.unifyNewlines cs) = text := by
    rw [FileTree.readText]
    cases t.read path with
    | error kind => simp
    | ok octets => cases hdecode : Text.Utf8.decodeChars? octets <;> simp [hdecode]
  simp only [Holds, htext, h]

/-- A file that holds documents can be read. -/
theorem Holds.exists_read {documents : List Yaml.Value} (h : Holds t path documents) :
    ∃ octets, t.read path = .ok octets := by
  obtain ⟨text, htext, -⟩ := h
  rw [FileTree.readText] at htext
  cases hread : t.read path with
  | error kind =>
    rw [hread] at htext
    cases htext
  | ok octets => exact ⟨octets, rfl⟩

/-! ### Directories -/

/-- **Whether a directory has a rule of an id**: a rule file that lies directly in it holds a
document of that id. -/
def Describes (t : FileTree) (dir : Path) (id : String) : Prop :=
  ∃ name documents, NamesRuleFile name ∧ Holds t (dir.child name) documents ∧
    ∃ document ∈ documents, Identifies document id

/-- **Whether the rules of a directory can be read**: it can be looked up, and so can everything
that lies directly in it if it is a directory; and every rule file holds documents. -/
structure Readable (t : FileTree) (dir : Path) : Prop where
  found : ∃ what, t.look dir = .ok what
  listed : ∀ l, t.stat dir = .ok (l, .directory) → ∀ name, (t.entry? (l.child name)).isSome = true →
    ∃ what, t.look (dir.child name) = .ok what
  loads : ∀ name, NamesRuleFile name → ∀ octets, t.read (dir.child name) = .ok octets →
    ∃ documents, Holds t (dir.child name) documents

/-- No rule file is named as what goes up. -/
theorem NamesRuleFile.ne_up (h : NamesRuleFile name) : name ≠ ".." :=
  ne_up_of_isRuleName (isRuleName_iff.2 h)

/-! ### Ids -/

/-- **A directory has the ids that it describes.** -/
theorem mem_of_idsOfDirectory {found : List String} (h : idsOfDirectory t dir = .ok found) :
    id ∈ found ↔ Describes t dir id := by
  obtain ⟨paths, lists, hfiles, hlists, rfl⟩ := idsOfDirectory_eq_ok_iff.1 h
  simp only [List.mem_flatten, mem_of_mapM hlists, mem_of_files hfiles, isRuleName_iff,
    idsOfFile_eq_ok_iff]
  constructor
  · rintro ⟨_, ⟨_, ⟨name, hname, rfl, -⟩, documents, hholds, rfl⟩, hid⟩
    obtain ⟨document, hdocument, hidentifies⟩ := List.mem_filterMap.1 hid
    exact ⟨name, documents, hname, hholds, document, hdocument, idOf?_eq_some_iff.1 hidentifies⟩
  · rintro ⟨name, documents, hname, hholds, document, hdocument, hidentifies⟩
    refine ⟨_, ⟨_, ⟨name, hname, rfl, hholds.exists_read⟩, documents, hholds, rfl⟩, ?_⟩
    exact List.mem_filterMap.2 ⟨document, hdocument, idOf?_eq_some_iff.2 hidentifies⟩

/-- **The ids of a directory are told just if its rules can be read.** -/
theorem exists_idsOfDirectory_iff :
    (∃ found, idsOfDirectory t dir = .ok found) ↔ Readable t dir := by
  have hloads {paths : List Path} (hfiles : files t dir = .ok paths) :
      (∃ lists, paths.mapM (idsOfFile t) = .ok lists) ↔
        ∀ name, NamesRuleFile name → ∀ octets, t.read (dir.child name) = .ok octets →
          ∃ documents, Holds t (dir.child name) documents := by
    simp only [exists_mapM_iff, mem_of_files hfiles, isRuleName_iff, idsOfFile_eq_ok_iff]
    constructor
    · intro h name hname octets hread
      obtain ⟨_, documents, hholds, -⟩ := h _ ⟨name, hname, rfl, octets, hread⟩
      exact ⟨documents, hholds⟩
    · rintro h _ ⟨name, hname, rfl, octets, hread⟩
      obtain ⟨documents, hholds⟩ := h name hname octets hread
      exact ⟨_, documents, hholds, rfl⟩
  constructor
  · rintro ⟨found, h⟩
    obtain ⟨paths, lists, hfiles, hlists, -⟩ := idsOfDirectory_eq_ok_iff.1 h
    obtain ⟨hfound, hlisted⟩ := exists_files_iff.1 ⟨paths, hfiles⟩
    exact ⟨hfound, hlisted, (hloads hfiles).1 ⟨lists, hlists⟩⟩
  · intro h
    obtain ⟨paths, hfiles⟩ := exists_files_iff.2 ⟨h.found, h.listed⟩
    obtain ⟨lists, hlists⟩ := (hloads hfiles).2 h.loads
    exact ⟨_, idsOfDirectory_eq_ok_iff.2 ⟨paths, lists, hfiles, hlists, rfl⟩⟩

/-- The ids of the rules of a selection, as a set. -/
def idSet (t : FileTree) (selector : LanguageSelector) (root : Path) :
    Except RuleFault (Set String) :=
  (ids t selector root).map fun found => {id | id ∈ found}

theorem idSet_of_ids {found : List String} (h : ids t selector root = .ok found) :
    idSet t selector root = .ok {id | id ∈ found} := by
  rw [idSet, h]
  rfl

/-- What the rule directories of a selection describe. -/
def described (t : FileTree) (selector : LanguageSelector) (root : Path) : Set String :=
  {id | ∃ dir ∈ selector.ruleDirs root, Describes t dir id}

/-- **The ids of a selection** are those that its directories describe, if the rules of these can
be read. -/
theorem idSet_eq_ok_iff {set : Set String} :
    idSet t selector root = .ok set ↔
      (∀ dir ∈ selector.ruleDirs root, Readable t dir) ∧ set = described t selector root := by
  have hreadable : (∃ found, ids t selector root = .ok found) ↔
      ∀ dir ∈ selector.ruleDirs root, Readable t dir := by
    simp only [← exists_idsOfDirectory_iff, ← exists_mapM_iff, ids_eq_ok_iff]
    exact ⟨fun ⟨_, lists, h, _⟩ => ⟨lists, h⟩, fun ⟨lists, h⟩ => ⟨_, lists, h, rfl⟩⟩
  cases hids : ids t selector root with
  | error fault =>
    rw [hids] at hreadable
    simp [← hreadable, idSet, hids, Except.map]
  | ok found =>
    have hset : {id | id ∈ found} = described t selector root := by
      obtain ⟨lists, hlists, rfl⟩ := ids_eq_ok_iff.1 hids
      ext id
      simp only [Set.mem_ofPred_eq, List.mem_flatten, mem_of_mapM hlists, described]
      constructor
      · rintro ⟨list, ⟨dir, hdir, hlist⟩, hid⟩
        exact ⟨dir, hdir, (mem_of_idsOfDirectory hlist).1 hid⟩
      · rintro ⟨dir, hdir, hid⟩
        obtain ⟨list, hlist⟩ := exists_idsOfDirectory_iff.2 (hreadable.1 ⟨_, hids⟩ dir hdir)
        exact ⟨list, ⟨dir, hdir, hlist⟩, (mem_of_idsOfDirectory hlist).2 hid⟩
    rw [idSet_of_ids hids, hset, Except.ok.injEq, eq_comm]
    exact (and_iff_right (hreadable.1 ⟨_, hids⟩)).symm

end Rules

end LintReport
