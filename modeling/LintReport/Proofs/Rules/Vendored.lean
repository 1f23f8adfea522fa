import LintReport.Proofs.Engine.Configuration
import LintReport.Proofs.Rules.Copied
import LintReport.Proofs.Rules.Discovery
import LintReport.Proofs.Text.Utf8

/-!
# Vendored Rules

Rules are vendored into a project that is not there yet. When that is done, the project has its own
copy of every rule directory of the selection that exists, and of nothing else, and its
configuration lists them. So the rules that are found in the project are those that are found where
they came from.

## Main definitions

* `Rules.Destination`: a path for a new project.
* `Rules.Vendored`: what has become of the files after rules have been vendored.

## Main results

* `Rules.Destination.prepared`: a project is made with the directory for its rules only.
* `Rules.vendor_ok`: the steps of vendoring.
* `Rules.vendor_keeps_catalogue`: **a project has the rules that have been vendored into it**.
-/

namespace LintReport.Rules

open FileTree (Location Entry locationOf stat_eq_ok_iff isDirectory_iff isDirectory_iff_stat
  resolve_eq_ok_iff resolve_mono)
open FileTree.Location (Apart isWithin_iff isWithin_descend isWithin_self)
open LanguageSelector (vendorDir)

variable {t m u w : FileTree} {d k l : Location} {root project : Path}
  {names : List String} {selector : LanguageSelector}

/-! ### Destinations -/

/-- The path of the rules that are kept in a project. -/
def rulesPath (project : Path) : Path := project.descend [vendorDir, "rules"]

/-- Where the rules of a project are kept. -/
def rulesAt (d : Location) : Location := d.descend [vendorDir, "rules"]

theorem rulesPath_eq (project : Path) :
    rulesPath project = (project.child vendorDir).child "rules" := by
  rw [rulesPath, Path.descend_cons, Path.child_eq_descend (project.child vendorDir)]

theorem rulesAt_eq (d : Location) : rulesAt d = (d.child vendorDir).child "rules" := by
  rw [rulesAt, Location.descend_cons, Location.child_eq_descend (d.child vendorDir)]

/-- Whether there is nothing where a path leads, and the path does not lead through that location
before its end. -/
structure Destination (t : FileTree) (project : Path) : Prop where
  new : t.entry? (locationOf project) = none
  way : ∀ q : Path, q.start = project.start → q.names <+: project.names → q.names ≠ project.names →
    (locationOf q).isWithin (locationOf project) = false

/-- A path that never goes up does not lead through where it ends. -/
theorem Destination.of_notMem (hdown : ".." ∉ project.names)
    (hnew : t.entry? (locationOf project) = none) : Destination t project := by
  refine ⟨hnew, fun q hstart hbegins hne => ?_⟩
  obtain ⟨rest, hrest⟩ := hbegins
  have hq : ".." ∉ q.names := fun hup => hdown (hrest ▸ List.mem_append_left rest hup)
  have hnil : rest ≠ [] := by
    rintro rfl
    exact hne (by rw [← hrest, List.append_nil])
  rw [locationOf, locationOf, FileTree.foldl_go hdown, FileTree.foldl_go hq, hstart, ← hrest,
    ← Location.descend_descend]
  exact Location.not_isWithin_descend _ hnil

/-- A tree in which a project and the directory for its rules have been made, and nothing else but
directories that the path of the project leads through. -/
structure Prepared (t m : FileTree) (project : Path) (d : Location) : Prop where
  tree : m.IsTree
  keeps : ∀ k e, t.entry? k = some e → m.entry? k = some e
  place : m.stat project = .ok (d, .directory)
  holder : m.stat (project.child vendorDir) = .ok (d.child vendorDir, .directory)
  empty : ∀ rel, rel ≠ [] → rel ≠ [vendorDir] → m.entry? (d.descend rel) = none
  elsewhere : ∀ k, k.isWithin d = false → m.entry? k ≠ t.entry? k →
    m.entry? k = some .directory ∧
      ∃ q : Path, q.start = project.start ∧ q.names <+: project.names ∧ k = locationOf q

/-- What has been made for a project is on its path, or is the directory for its rules. -/
theorem exists_of_makes (hmakes : FileTree.Makes (project.child vendorDir) t m)
    (hne : m.entry? k ≠ t.entry? k) :
    m.entry? k = some .directory ∧ (k = (locationOf project).child vendorDir ∨
      ∃ q : Path, q.start = project.start ∧ q.names <+: project.names ∧ k = locationOf q) := by
  obtain ⟨-, hdirectory, q, hstart, hbegins, hresolve⟩ := hmakes.resolve_of_ne hne
  have hk := FileTree.eq_locationOf hresolve
  refine ⟨hdirectory, ?_⟩
  obtain hwhole | hbegins := List.prefix_concat_iff.1 hbegins
  · left
    rw [hk, ← FileTree.locationOf_child (by decide), locationOf, locationOf, hwhole, hstart]
    rfl
  · exact .inr ⟨q, hstart, hbegins, hk⟩

/-- **A project is made with the directory for its rules only.** -/
theorem Destination.prepared (hd : Destination t project) (ht : t.IsTree) {budget : Nat}
    (hmade : (FileTree.makeWithParents budget (project.child vendorDir)).run.run t = (.ok (), m)) :
    Prepared t m project (locationOf project) := by
  have hattempts := FileTree.makeWithParents_attempts budget (project.child vendorDir) t
  rw [hmade] at hattempts
  have hmakes := hattempts.makes
  have hholder := hattempts.done () rfl
  have hplace := @FileTree.isDirectory_of_descend m project [vendorDir] hholder
  refine ⟨hmakes.isTree ht, fun k e => hmakes.keeps, isDirectory_iff_stat.1 hplace, ?_,
    fun rel hrel hne => ?_, fun k hk hne => ?_⟩
  · rw [← FileTree.locationOf_child (by decide)]
    exact isDirectory_iff_stat.1 hholder
  · have hnone := ht.entry?_of_none hd.new rel
    by_contra hnew
    rw [← hnone] at hnew
    obtain ⟨-, heq | ⟨q, hstart, hbegins, heq⟩⟩ := exists_of_makes hmakes hnew
    · rw [Location.child_eq_descend, Location.descend_inj] at heq
      exact hne heq
    · -- of its own path only the project itself lies in the project
      by_cases hwhole : q.names = project.names
      · have hq : q = project := by rw [show q = ⟨q.start, q.names⟩ from rfl, hstart, hwhole]
        rw [hq] at heq
        exact hrel (Location.descend_inj.1 (heq.trans (Location.descend_nil _).symm))
      · have hwithin := isWithin_descend (locationOf project) rel
        rw [heq, hd.way q hstart hbegins hwhole] at hwithin
        cases hwithin
  · obtain ⟨hdirectory, rfl | hway⟩ := exists_of_makes hmakes hne
    · rw [Location.child_eq_descend, isWithin_descend] at hk
      cases hk
    · exact ⟨hdirectory, hway⟩

namespace Prepared

/-- There are no rules yet in a project that has just been made. -/
theorem shelf (hp : Prepared t m project d) :
    Shelf m (project.child vendorDir) (d.child vendorDir) where
  tree := hp.tree
  holder := hp.holder
  empty := by
    rw [← rulesAt_eq]
    exact hp.empty [vendorDir, "rules"] (by simp) (by simp)

/-- What is apart from the rules of a project is apart from the project. -/
theorem apart (hp : Prepared t m project d) (hl : m.entry? l = some .directory)
    (hapart : Apart l (rulesAt d)) : Apart l d := by
  have hrules : (rulesAt d).isWithin d = true := isWithin_descend d [vendorDir, "rules"]
  constructor
  · rw [Bool.eq_false_iff]
    intro hwithin
    obtain ⟨rel, rfl⟩ := isWithin_iff.1 hwithin
    -- all that is in the project are the directories down to the rules
    have habove : (rulesAt d).isWithin (d.descend rel) = true := by
      by_cases hnil : rel = []
      · rwa [hnil, Location.descend_nil]
      · by_cases hholder : rel = [vendorDir]
        · rw [hholder, rulesAt_eq]
          exact isWithin_descend (d.child vendorDir) ["rules"]
        · rw [hp.empty rel hnil hholder] at hl
          cases hl
    rw [hapart.right] at habove
    cases habove
  · exact Location.not_isWithin_of_isWithin hapart.right hrules

end Prepared

/-! ### Steps -/

theorem writeText_ok {p : Path} {text : String} {s s' : Session}
    (hrun : (writeText p text).run.run s = (.ok (), s')) :
    s.files.write p (Text.Utf8.encode text) = .ok s'.files := by
  rw [writeText, Run.run_files_bind] at hrun
  cases hwrite : s.files.write p (Text.Utf8.encode text) with
  | ok t =>
    rw [hwrite] at hrun
    cases hrun
    rfl
  | error kind =>
    rw [hwrite] at hrun
    cases hrun

/-- **The steps of vendoring**: a project is made, the entries are copied, and the configuration is
written. -/
theorem vendor_ok {language : String} (hvalid : LanguageSelector.ofText? language = some selector)
    {s s' : Session} {path : Path}
    (hrun : (vendor language project root).run.run s = (.ok path, s')) :
    path = project.child Configuration.fileName ∧ ∃ s₁ s₂ text,
      (FileTree.makeWithParents missingLimit (project.child vendorDir)).run.run s.files =
        (.ok (), s₁.files) ∧
      (forIn selector.entriesSharedFirst PUnit.unit (fun names _ => do
        vendorEntry root (project.child vendorDir) names
        pure (ForInStep.yield PUnit.unit)) : Run VendorFault PUnit).run.run s₁ = (.ok (), s₂) ∧
      Configuration.generate selector.vendoredDirs = .ok text ∧
      s₂.files.write (project.child Configuration.fileName) (Text.Utf8.encode text) =
        .ok s'.files := by
  rw [vendor] at hrun
  obtain ⟨_, s₀, hmade, hafterMade⟩ := exists_of_run_bind_ok hrun
  obtain ⟨_, s₁, htold, hafterTold⟩ := exists_of_run_bind_ok hafterMade
  rw [hvalid] at hafterTold
  dsimp only at hafterTold
  obtain ⟨_, s₂, hcopied, hafterCopied⟩ := exists_of_run_bind_ok hafterTold
  obtain ⟨text, s₃, hmapped, hafterMapped⟩ := exists_of_run_bind_ok hafterCopied
  obtain ⟨hmapped, hsame⟩ := Run.run_ofExcept_ok hmapped
  rw [hsame] at hafterMapped
  obtain ⟨_, s₄, hwritten, hafterWritten⟩ := exists_of_run_bind_ok hafterMapped
  have hgenerate : Configuration.generate selector.vendoredDirs = .ok text := by
    cases hmade : Configuration.generate selector.vendoredDirs with
    | ok made =>
      rw [hmade] at hmapped
      rw [Except.ok.inj hmapped]
    | error fault =>
      rw [hmade] at hmapped
      cases hmapped
  have hmade := Run.run_onFiles_adapt_ok hmade
  have hwritten := writeText_ok hwritten
  have hfiles : s₁.files = s₀.files := by
    cases htold
    rfl
  rw [← hfiles] at hmade
  -- what follows are messages only
  cases hafterWritten
  exact ⟨rfl, s₁, s₂, text, hmade, hcopied, hgenerate, hwritten⟩

/-! ### The configuration -/

/-- A tree in which a new file has been written, and nothing else. -/
structure AddsFile (u w : FileTree) (p : Path) (c : Location) (content : List UInt8) : Prop where
  tree : w.IsTree
  new : u.entry? c = none
  elsewhere : ∀ k, k ≠ c → w.entry? k = u.entry? k
  directories : ∀ k, w.entry? k = some .directory → u.entry? k = some .directory
  read : w.read p = .ok content

/-- A file that is written in a directory where nothing has its name is all that is new. -/
theorem addsFile_of_write {p : Path} {name : String} {content : List UInt8} (hu : u.IsTree)
    (hp : u.stat p = .ok (d, .directory)) (hname : name ≠ "..")
    (hnew : u.entry? (d.child name) = none) (hwrite : u.write (p.child name) content = .ok w) :
    AddsFile u w (p.child name) (d.child name) content := by
  obtain ⟨c, executable, hresolve, hfile, rfl⟩ := FileTree.exists_put_of_write hwrite
  obtain rfl := FileTree.resolve_child_eq (stat_eq_ok_iff.1 hp).1 hname hresolve
  refine ⟨hu.put_of_resolve hresolve hfile _, hnew, fun k hk => FileTree.entry?_put_of_ne hk u _,
    fun k => FileTree.directory_of_put_file, ?_⟩
  rw [FileTree.read_of_resolve (FileTree.resolve_put hfile _ hresolve),
    FileTree.entry?_put_self (by simp [Location.child])]

/-- The configuration of a project lies apart from its rules. -/
theorem apart_configuration (d : Location) :
    Apart (rulesAt d) (d.child Configuration.fileName) := by
  have hne : vendorDir ≠ Configuration.fileName := by decide
  rw [rulesAt_eq]
  exact (Location.apart_child d hne).descend_left ["rules"]

/-- The configuration is new in a project into which the entries have been copied. -/
theorem addsFile_configuration {content : List UInt8} (hp : Prepared t m project d)
    (hc : Copied m u root (rulesPath project) (rulesAt d) selector.entriesSharedFirst)
    (hwrite : u.write (project.child Configuration.fileName) content = .ok w) :
    AddsFile u w (project.child Configuration.fileName) (d.child Configuration.fileName)
      content := by
  have hplace : u.stat project = .ok (d, .directory) := by
    rw [rulesAt_eq] at hc
    exact FileTree.stat_mono (fun _ _ => hc.keeps hp.shelf) hp.place
  have hnew : u.entry? (d.child Configuration.fileName) = none := by
    rw [hc.elsewhere _ (apart_configuration d).right]
    exact hp.empty [Configuration.fileName] (List.cons_ne_nil _ _) (by decide)
  exact addsFile_of_write hc.tree hplace (by decide) hnew hwrite

namespace AddsFile

variable {p : Path} {c : Location} {content : List UInt8}

theorem keeps (h : AddsFile u w p c content) {e : Entry} (hk : u.entry? k = some e) :
    w.entry? k = some e := by
  rw [h.elsewhere k, hk]
  rintro rfl
  rw [h.new] at hk
  cases hk

/-- There is a directory at a path in both trees or in none. -/
theorem stat_iff (h : AddsFile u w p c content) {q : Path} :
    w.stat q = .ok (l, .directory) ↔ u.stat q = .ok (l, .directory) := by
  refine ⟨fun hl => ?_, FileTree.stat_mono fun _ _ => h.keeps⟩
  rw [stat_eq_ok_iff] at hl ⊢
  exact ⟨resolve_mono h.directories hl.1, h.directories l hl.2⟩

end AddsFile

/-! ### Projects -/

/-- What has become of the files after the rules of a selection have been vendored into a new
project: what there was is kept, the project has its own copy of every rule directory that exists
and of nothing else, its configuration lists them, and the same rules are found in it. -/
structure Vendored (selector : LanguageSelector) (root project : Path) (d : Location)
    (t w : FileTree) : Prop where
  /-- The rules are kept in the project. -/
  place : w.stat (project.child vendorDir) = .ok (d.child vendorDir, .directory)
  /-- The configuration reads back as the list of the rule directories. -/
  configuration : ∃ text, w.readText (project.child Configuration.fileName) = .ok text ∧
    Configuration.read text = .ok selector.vendoredDirs
  /-- A rule directory that exists lies apart from the project. -/
  apart : ∀ names ∈ selector.entries, ∀ l, w.stat (root.descend names) = .ok (l, .directory) →
    Apart l d
  /-- A rule directory that exists is copied with everything in it. -/
  copied : ∀ names ∈ selector.entries, ∀ l, w.stat (root.descend names) = .ok (l, .directory) →
    ∀ rel, w.entry? ((rulesAt d).descend (names ++ rel)) = w.entry? (l.descend rel)
  /-- For a rule directory that does not exist, there is nothing in the project. -/
  missing : ∀ names ∈ selector.entries, w.isDirectory (root.descend names) = false →
    ∀ rel, w.entry? ((rulesAt d).descend (names ++ rel)) = none
  /-- There is nothing among the rules but the copies and the directories above them. -/
  nothingElse : ∀ rel e, w.entry? ((rulesAt d).descend rel) = some e →
    ∃ names ∈ selector.entries, w.isDirectory (root.descend names) = true ∧
      (names <+: rel ∨ rel <+: names ∧ e = .directory)
  /-- What there was is kept. -/
  keeps : ∀ k e, t.entry? k = some e → w.entry? k = some e
  /-- Outside the project nothing is new but directories that its path leads through. -/
  elsewhere : ∀ k, k.isWithin d = false → w.entry? k ≠ t.entry? k →
    w.entry? k = some .directory ∧
      ∃ q : Path, q.start = project.start ∧ q.names <+: project.names ∧ k = locationOf q
  /-- The same rules are found, if the paths of the rule directories are not too long. -/
  ids : (∀ names ∈ selector.entries,
      ((rulesPath project).descend names).text.utf8ByteSize < FileTree.pathLimit) →
    ∀ found, Rules.ids w selector root = .ok found →
      Rules.ids w selector (rulesPath project) = .ok found

/-- The trees that vendoring passes through: a project is made, the entries are copied, and a
configuration is written. -/
structure Stages (selector : LanguageSelector) (root project : Path) (d : Location)
    (content : List UInt8) (t m u w : FileTree) : Prop where
  prepared : Prepared t m project d
  copied : Copied m u root (rulesPath project) (rulesAt d) selector.entriesSharedFirst
  written : AddsFile u w (project.child Configuration.fileName) (d.child Configuration.fileName)
    content

namespace Stages

open LanguageSelector (mem_entriesSharedFirst up_notMem_entry)

variable {content : List UInt8} {e : Entry}

/-- The rules are not changed by the configuration. -/
theorem entry?_rules (h : Stages selector root project d content t m u w) (rel : List String) :
    w.entry? ((rulesAt d).descend rel) = u.entry? ((rulesAt d).descend rel) := by
  refine h.written.elsewhere _ fun heq => ?_
  have hapart := (apart_configuration d).descend_left rel
  rw [heq] at hapart
  have hself := isWithin_self (d.child Configuration.fileName)
  rw [hapart.left] at hself
  cases hself

/-- Outside the project nothing is changed after it has been made. -/
theorem entry?_outside (h : Stages selector root project d content t m u w)
    (hk : k.isWithin d = false) : w.entry? k = m.entry? k := by
  rw [h.written.elsewhere, h.copied.elsewhere]
  · exact Location.not_isWithin_below hk [vendorDir, "rules"]
  · rintro rfl
    rw [Location.child_eq_descend, isWithin_descend] at hk
    cases hk

theorem keeps (h : Stages selector root project d content t m u w) (hk : m.entry? k = some e) :
    w.entry? k = some e := by
  have hcopied := h.copied
  rw [rulesAt_eq] at hcopied
  exact h.written.keeps (hcopied.keeps h.prepared.shelf hk)

/-- What led to a directory in the prepared project still does. -/
theorem stat_mono (h : Stages selector root project d content t m u w) {p : Path}
    (hp : m.stat p = .ok (l, .directory)) : w.stat p = .ok (l, .directory) :=
  FileTree.stat_mono (fun _ _ => h.keeps) hp

/-- The rule directories that exist are those that did before they were copied. -/
theorem stat_source_iff (h : Stages selector root project d content t m u w)
    (hnames : names ∈ selector.entries) :
    w.stat (root.descend names) = .ok (l, .directory) ↔
      m.stat (root.descend names) = .ok (l, .directory) := by
  refine ⟨fun hl => ?_, h.stat_mono⟩
  have hcopied := h.copied
  rw [rulesAt_eq] at hcopied
  exact hcopied.stat_source h.prepared.shelf (fun _ => mem_entriesSharedFirst.1) hnames
    (h.written.stat_iff.1 hl)

theorem isDirectory_source_iff (h : Stages selector root project d content t m u w)
    (hnames : names ∈ selector.entries) :
    w.isDirectory (root.descend names) = true ↔ m.isDirectory (root.descend names) = true := by
  simp only [isDirectory_iff, ← stat_eq_ok_iff, h.stat_source_iff hnames]

/-- A rule directory that exists lies apart from the project, and is copied with everything in it. -/
theorem copied_source (h : Stages selector root project d content t m u w)
    (hnames : names ∈ selector.entries)
    (hl : w.stat (root.descend names) = .ok (l, .directory)) :
    Apart l d ∧ ∀ rel, w.entry? ((rulesAt d).descend (names ++ rel)) = w.entry? (l.descend rel) := by
  rw [h.stat_source_iff hnames] at hl
  obtain ⟨hrules, hsame⟩ := h.copied.copied names (mem_entriesSharedFirst.2 hnames) l hl
  have hapart := h.prepared.apart (stat_eq_ok_iff.1 hl).2 hrules
  refine ⟨hapart, fun rel => ?_⟩
  rw [h.entry?_rules, hsame, h.entry?_outside (hapart.descend_left rel).left]

/-- For a rule directory that does not exist, there is nothing in the project. -/
theorem missing_source (h : Stages selector root project d content t m u w)
    (hnames : names ∈ selector.entries) (hnot : w.isDirectory (root.descend names) = false)
    (rel : List String) : w.entry? ((rulesAt d).descend (names ++ rel)) = none := by
  rw [h.entry?_rules]
  cases hentry : u.entry? ((rulesAt d).descend (names ++ rel)) with
  | none => rfl
  | some e =>
    obtain ⟨other, hother, hdirectory, hfound⟩ := h.copied.others _ e hentry
    have hother := mem_entriesSharedFirst.1 hother
    obtain rfl : other = names := by
      obtain hbegins | ⟨hbegins, -⟩ := hfound
      · exact LanguageSelector.eq_of_prefixes hother hnames hbegins (List.prefix_append names rel)
      · exact (LanguageSelector.eq_of_prefix_entry hnames hother
          ((List.prefix_append names rel).trans hbegins)).symm
    rw [← h.isDirectory_source_iff hnames, hnot] at hdirectory
    cases hdirectory

/-- What is found at the path of a copy is what is there, if the path is not too long. -/
theorem look_copy (h : Stages selector root project d content t m u w)
    (hnames : names ∈ selector.entries)
    (hshort : ((rulesPath project).descend names).text.utf8ByteSize < FileTree.pathLimit) :
    w.look ((rulesPath project).descend names) =
      .ok ((w.entry? ((rulesAt d).descend names)).map fun e => ((rulesAt d).descend names, e)) := by
  rw [rulesPath_eq, ← Path.descend_cons] at hshort ⊢
  rw [rulesAt_eq, ← Location.descend_cons]
  have hholder := (stat_eq_ok_iff.1 (h.stat_mono h.prepared.holder)).1
  refine h.written.tree.look_descend hholder (LanguageSelector.up_notMem_copy hnames)
    (LanguageSelector.size_of_mem_copy hnames) ⟨fun name hname => ?_, hshort⟩
  obtain hname | hname := List.mem_append.1 hname
  · exact (resolve_eq_ok_iff.1 hholder).1.noNull name hname
  · exact LanguageSelector.null_notMem_copy hnames name hname

/-- **The rules of a directory are found in its copy**, and none where there is nothing to copy. -/
theorem idsOfDirectory_copy (h : Stages selector root project d content t m u w)
    (hnames : names ∈ selector.entries)
    (hshort : ((rulesPath project).descend names).text.utf8ByteSize < FileTree.pathLimit)
    {found : List String} (hfound : idsOfDirectory w (root.descend names) = .ok found) :
    idsOfDirectory w ((rulesPath project).descend names) = .ok found := by
  have hlook := h.look_copy hnames hshort
  cases hsource : w.isDirectory (root.descend names) with
  | true =>
    obtain ⟨l, hresolve, hldirectory⟩ := isDirectory_iff.1 hsource
    have hl := stat_eq_ok_iff.2 ⟨hresolve, hldirectory⟩
    obtain ⟨-, hsame⟩ := h.copied_source hnames hl
    have hcopied := hsame []
    rw [List.append_nil, Location.descend_nil, hldirectory] at hcopied
    rw [hcopied] at hlook
    refine idsOfDirectory_of_usable h.written.tree hl (FileTree.stat_of_look hlook)
      (fun name => ?_) (fun name hname => ?_) hfound
    · rw [Location.child_eq_descend, Location.descend_descend, hsame, Location.child_eq_descend]
    · rw [Location.child_eq_descend, Location.descend_descend, h.entry?_rules] at hname
      rw [Path.child_eq_descend, Path.descend_descend]
      exact h.copied.usable names (mem_entriesSharedFirst.2 hnames)
        ((h.isDirectory_source_iff hnames).1 hsource) [name] hname
  | false =>
    obtain ⟨what, hwhat⟩ := exists_look_of_idsOfDirectory hfound
    rw [idsOfDirectory_of_not_isDirectory hwhat hsource] at hfound
    have hnone := h.missing_source hnames hsource []
    rw [List.append_nil] at hnone
    rw [hnone] at hlook
    rw [idsOfDirectory_of_not_isDirectory hlook, hfound]
    rw [Bool.eq_false_iff]
    intro hdirectory
    obtain ⟨l, hresolve, hl⟩ := isDirectory_iff.1 hdirectory
    rw [FileTree.look, stat_eq_ok_iff.2 ⟨hresolve, hl⟩] at hlook
    cases hlook

/-- **After all stages a project has the rules that have been vendored into it.** -/
theorem vendored {text : String}
    (h : Stages selector root project d (Text.Utf8.encode text) t m u w)
    (hgenerate : Configuration.generate selector.vendoredDirs = .ok text) :
    Vendored selector root project d t w where
  place := h.stat_mono h.prepared.holder
  configuration := by
    obtain ⟨rfl, hread⟩ := Configuration.of_generate hgenerate
    exact ⟨_, FileTree.readText_eq_ok h.written.read (Configuration.return_notMem_vendored selector),
      hread⟩
  apart _ hnames _ hl := (h.copied_source hnames hl).1
  copied _ hnames _ hl := (h.copied_source hnames hl).2
  missing _ hnames hnot := h.missing_source hnames hnot
  nothingElse rel e hrel := by
    rw [h.entry?_rules] at hrel
    obtain ⟨names, hnames, hdirectory, hfound⟩ := h.copied.others rel e hrel
    have hnames := mem_entriesSharedFirst.1 hnames
    exact ⟨names, hnames, (h.isDirectory_source_iff hnames).2 hdirectory, hfound⟩
  keeps k e hk := h.keeps (h.prepared.keeps k e hk)
  elsewhere k hk := by
    rw [h.entry?_outside hk]
    exact h.prepared.elsewhere k hk
  ids hshort _ := ids_of_forall fun names hnames _ =>
    h.idsOfDirectory_copy hnames (hshort names hnames)

end Stages

/-- **A project has the rules that have been vendored into it**: whenever vendoring into a project
that is not there yet succeeds, the project has a copy of every rule directory that exists and of
nothing else, and its configuration and the rules that are found in it are those of the selection. -/
theorem vendor_keeps_catalogue {language : String}
    (hvalid : LanguageSelector.ofText? language = some selector) {s s' : Session} {path : Path}
    (htree : s.files.IsTree) (hproject : Destination s.files project)
    (hrun : (vendor language project root).run.run s = (.ok path, s')) :
    path = project.child Configuration.fileName ∧
      Vendored selector root project (locationOf project) s.files s'.files := by
  obtain ⟨hpath, s₁, s₂, text, hmade, hcopied, hgenerate, hwritten⟩ := vendor_ok hvalid hrun
  have hprepared := hproject.prepared htree hmade
  have hcopied := vendorEntries_copied hprepared.shelf hcopied
  rw [← rulesPath_eq, ← rulesAt_eq] at hcopied
  have hstages : Stages selector root project (locationOf project) _ s.files s₁.files s₂.files
      s'.files :=
    ⟨hprepared, hcopied, addsFile_configuration hprepared hcopied hwritten⟩
  exact ⟨hpath, hstages.vendored hgenerate⟩

/-- Rules of which only those that are shared exist. -/
def sharedRules : FileTree :=
  ⟨[(⟨.working, ["rules"]⟩, .directory), (⟨.working, ["rules", "shared"]⟩, .directory),
    (⟨.working, ["rules", "shared", "rust"]⟩, .directory),
    (⟨.working, ["rules", "shared", "rust", "a.yml"]⟩,
      .file (Text.Utf8.encode "id: no-unwrap\n") false)]⟩

/-- Vendors rules for Rust into a project. -/
def vendorRust (rules : FileTree) (project : Path) : Except VendorFault Path × Session :=
  (vendor "rust" project ⟨.working, ["rules"]⟩).run.run { files := rules }

/-- Shared rules that are vendored are found in the project, and nothing is there for those that do
not exist. -/
theorem sharedRules_vendored :
    let ran := vendorRust sharedRules ⟨.working, ["out"]⟩
    ran.1 = .ok ⟨.working, ["out", "sgconfig.yml"]⟩ ∧
    ran.2.files.entry? ⟨.working, ["out", ".ast-grep", "rules", "rust"]⟩ = none ∧
    Rules.ids ran.2.files (.only .rust) ⟨.working, ["out", ".ast-grep", "rules"]⟩ =
      .ok ["no-unwrap"] := by
  have hvalid : LanguageSelector.ofText? "rust" = some (.only .rust) := by decide
  have htree : sharedRules.IsTree := .of_entries (by decide) (by decide)
  have hproject : Destination sharedRules ⟨.working, ["out"]⟩ := .of_notMem (by decide) (by decide)
  have hpath : (vendorRust sharedRules ⟨.working, ["out"]⟩).1 =
      .ok ⟨.working, ["out", "sgconfig.yml"]⟩ := by
    decide +kernel
  have hown : (vendorRust sharedRules ⟨.working, ["out"]⟩).2.files.isDirectory
      ⟨.working, ["rules", "rust"]⟩ = false := by
    decide +kernel
  have hids : Rules.ids (vendorRust sharedRules ⟨.working, ["out"]⟩).2.files (.only .rust)
      ⟨.working, ["rules"]⟩ = .ok ["no-unwrap"] := by
    decide +kernel
  generalize hran : vendorRust sharedRules ⟨.working, ["out"]⟩ = ran at hpath hown hids ⊢
  have hrun : ran = (.ok ⟨.working, ["out", "sgconfig.yml"]⟩, ran.2) := Prod.ext hpath rfl
  obtain ⟨-, hvendored⟩ := vendor_keeps_catalogue hvalid htree hproject (hran.trans hrun)
  exact ⟨hpath, hvendored.missing ["rust"] (by decide) hown [], hvendored.ids (by decide) _ hids⟩

/-- Rules without any rule directory. -/
def emptyRules : FileTree := ⟨[(⟨.working, ["rules"]⟩, .directory)]⟩

/-- A path to a project that leads through the rules that are kept there. -/
def windingProject : Path :=
  ⟨.working, ["out", ".ast-grep", "rules", "rust", "..", "..", "..", "..", "out"]⟩

/-- A path to a project that is almost too long. -/
def longProject : Path := ⟨.working, List.replicate 16 (String.ofList (List.replicate 254 'a'))⟩

/-- Not every new project outside the rules gets what the rules hold. On a path that leads through
the project itself, a rule directory is made that the rules do not have; and where the path is
almost too long, the rule directories cannot be looked up. -/
theorem windingProject_longProject_differ :
    (emptyRules.entry? (locationOf windingProject) = none ∧
      (locationOf windingProject).isWithin ⟨.working, ["rules"]⟩ = false ∧
      (vendorRust emptyRules windingProject).1 =
        .ok (windingProject.child Configuration.fileName) ∧
      (vendorRust emptyRules windingProject).2.files.isDirectory ⟨.working, ["rules", "rust"]⟩ =
        false ∧
      (vendorRust emptyRules windingProject).2.files.isDirectory
        ((rulesPath windingProject).child "rust") = true) ∧
    (emptyRules.entry? (locationOf longProject) = none ∧
      (locationOf longProject).isWithin ⟨.working, ["rules"]⟩ = false ∧
      (vendorRust emptyRules longProject).1 = .ok (longProject.child Configuration.fileName) ∧
      Rules.ids (vendorRust emptyRules longProject).2.files (.only .rust) ⟨.working, ["rules"]⟩ =
        .ok [] ∧
      (Rules.ids (vendorRust emptyRules longProject).2.files (.only .rust)
        (rulesPath longProject)).isOk = false) := by
  constructor <;> decide +kernel

end LintReport.Rules
