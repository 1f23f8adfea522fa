import LintReport.Proofs.FileTree.Settled
import LintReport.Proofs.Rules.Vendored

/-!
# Vendoring into What Is There

Rules are vendored into a project that may hold anything already, such as rules that were vendored
before. On either way out, no file changes but the configuration and the places where files of the
rule directories land. When it is done, every such file has landed and the configuration is written,
and doing it again changes nothing.

A file lands at the place that corresponds to it, unless a directory stands there: then it lands in
that directory, and nothing is said about it.

## Main definitions

* `Rules.Copies`: what is copied where.
* `Rules.Separate`: whether no rule directory lies in the project or holds it.
* `Rules.EntryDone`: whether nothing is left to do for an entry.
* `Rules.Course`: the trees that vendoring passes through on either way out.
* `Rules.Merged`: what has become of the files after rules have been vendored.

## Main results

* `Rules.vendorEntries_merges`, `Rules.vendorEntries_done`: the entries of a selection.
* `Rules.Course.kept`: what stays on either way out.
* `Rules.vendor_done`: what holds when it has succeeded.
* `Rules.vendor_again`: what is done is done again without changing anything.
* `Rules.vendor_merges`: **vendoring changes its own files only, and a second time none**.
-/

namespace LintReport.Rules

open FileTree (Location Entry Below Landed Makes Merges Separates Settled locationOf stat_eq_ok_iff
  isDirectory_iff isDirectory_iff_stat)
open FileTree.Location (Apart isWithin_descend)
open LanguageSelector (vendorDir mem_entriesSharedFirst up_notMem_copy up_notMem_entry)

variable {t m u w : FileTree} {d k l place : Location} {root project holder : Path}
  {names other : List String} {selector : LanguageSelector} {language : String} {s s' : Session}

/-! ### What is copied where -/

/-- What is copied where when rules are vendored: what is below a rule directory, to below the place
of that directory among the rules of the project. -/
def Copies (w : FileTree) (selector : LanguageSelector) (root project : Path)
    (k place : Location) : Prop :=
  ∃ names ∈ selector.entries, w.isDirectory (root.descend names) = true ∧
    Below (locationOf (root.descend names)) ((rulesAt (locationOf project)).descend names) k place

/-- Whether no rule directory lies in the project or holds it. -/
def Separate (w : FileTree) (selector : LanguageSelector) (root project : Path) : Prop :=
  ∀ names ∈ selector.entries, w.isDirectory (root.descend names) = true →
    Apart (locationOf (root.descend names)) (locationOf project)

theorem Copies.mono (hback : ∀ p, u.isDirectory p = true → w.isDirectory p = true)
    (h : Copies u selector root project k place) : Copies w selector root project k place := by
  obtain ⟨names, hnames, hdirectory, hbelow⟩ := h
  exact ⟨names, hnames, hback _ hdirectory, hbelow⟩

theorem Separate.mono (h : Separate w selector root project)
    (hback : ∀ p, u.isDirectory p = true → w.isDirectory p = true) :
    Separate u selector root project :=
  fun names hnames hdirectory => h names hnames (hback _ hdirectory)

/-- The place of an entry lies in the project. -/
theorem isWithin_rulesAt (d : Location) (names : List String) :
    ((rulesAt d).descend names).isWithin d = true := by
  rw [rulesAt, Location.descend_descend]
  exact isWithin_descend d _

theorem descend_rules (d : Location) (names : List String) :
    (d.child vendorDir).descend ("rules" :: names) = (rulesAt d).descend names := by
  rw [Location.descend_cons, rulesAt_eq]

theorem Separate.separates (h : Separate w selector root project) :
    Separates (locationOf project) (Copies w selector root project) := by
  rintro k place ⟨names, hnames, hdirectory, hbelow⟩
  exact Below.separates (h names hnames hdirectory) (isWithin_rulesAt _ names) k place hbelow

/-- The places of two entries are apart. -/
theorem apart_entries (d : Location) (hnames : names ∈ selector.entries)
    (hother : other ∈ selector.entries) (hne : other ≠ names) :
    Apart ((rulesAt d).descend other) ((rulesAt d).descend names) := by
  constructor
  · rw [Bool.eq_false_iff]
    intro hwithin
    exact hne (LanguageSelector.eq_of_prefix_entry hnames hother
      (Location.descend_isWithin_iff.1 hwithin)).symm
  · rw [Bool.eq_false_iff]
    intro hwithin
    exact hne (LanguageSelector.eq_of_prefix_entry hother hnames
      (Location.descend_isWithin_iff.1 hwithin))

/-! ### The directory for the rules -/

/-- The directory of a project that holds its rules, which lies in the project. -/
theorem stat_holder (h : m.isDirectory (project.child vendorDir) = true) :
    m.stat (project.child vendorDir) = .ok ((locationOf project).child vendorDir, .directory) := by
  rw [← FileTree.locationOf_child (by decide)]
  exact isDirectory_iff_stat.1 h

theorem isWithin_holder (d : Location) : (d.child vendorDir).isWithin d = true :=
  isWithin_descend d [vendorDir]

/-- **Copying an entry is a merge at its place.** -/
theorem copyDirectory_merges (root : Path) (ht : t.IsTree) (hnames : names ∈ selector.entries)
    (hholder : t.isDirectory (project.child vendorDir) = true) :
    Merges (locationOf project)
      (Below (locationOf (root.descend names)) ((rulesAt (locationOf project)).descend names)) t
      ((FileTree.copyDirectory (root.descend names) (project.child vendorDir)
        ("rules" :: names)).run.run t).2 := by
  rw [← descend_rules]
  exact FileTree.copyDirectory_merges _ ht (stat_holder hholder) (isWithin_holder _)
    (up_notMem_copy hnames)

/-! ### All entries on either way out -/

/-- **The entries of a selection are merged**, whatever becomes of the copies. -/
theorem vendorEntries_merges (htree : s.files.IsTree)
    (hholder : s.files.isDirectory (project.child vendorDir) = true)
    {result : Except VendorFault PUnit}
    (hrun : (forIn selector.entriesSharedFirst PUnit.unit (fun names _ => do
        vendorEntry root (project.child vendorDir) names
        pure (ForInStep.yield PUnit.unit)) : Run VendorFault PUnit).run.run s = (result, s')) :
    Merges (locationOf project) (Copies s'.files selector root project) s.files s'.files := by
  -- which directories there are is known only at the end, so the end is fixed and the steps are
  -- taken back from there
  have hall := of_run_forIn selector.entriesSharedFirst (vendorEntry root (project.child vendorDir))
    (R := fun s s' : Session => s.files.IsTree →
      s.files.isDirectory (project.child vendorDir) = true →
        Merges (locationOf project) (Copies s'.files selector root project) s.files s'.files)
    (fun s _ _ => .none s.files) (fun names hnames s s' hrest htree hholder => ?_) s htree hholder
  · rwa [hrun] at hall
  · have hnames := mem_entriesSharedFirst.1 hnames
    cases hstep : (vendorEntry root (project.child vendorDir) names).run.run s with
    | mk result s₁ =>
      rw [hstep] at hrest
      obtain ⟨hsame, -⟩ | ⟨hdirectory, copied, hcopied, -⟩ := vendorEntry_cases hstep
      · rw [← hsame] at htree hholder ⊢
        exact hrest htree hholder
      · have hmerges := copyDirectory_merges root htree hnames hholder
        rw [hcopied] at hmerges
        have hrest := hrest (hmerges.isTree htree) (hmerges.isDirectory hholder)
        refine (hmerges.mono fun k place hbelow => ?_).trans hrest
        exact ⟨names, hnames, hrest.isDirectory (hmerges.isDirectory hdirectory), hbelow⟩

/-! ### Entries that are done -/

/-- Whether nothing is left to do for an entry: it can be asked for, and if it is a directory, it has
been copied to where it would be copied again. -/
structure EntryDone (u : FileTree) (root holder : Path) (names : List String) : Prop where
  askable : u.resolve (root.descend names) ≠ .error .nameTooLong
  settled : u.isDirectory (root.descend names) = true →
    Settled u (u.entries.length + 1) (root.descend names) (holder.descend ("rules" :: names))

/-- An entry stays done while it does not become a directory and neither its files nor what they have
become are touched. -/
theorem EntryDone.later (h : EntryDone u root (project.child vendorDir) names) (hu : u.IsTree)
    (hnames : names ∈ selector.entries)
    (haskable : w.resolve (root.descend names) ≠ .error .nameTooLong)
    (hback : w.isDirectory (root.descend names) = true → u.isDirectory (root.descend names) = true)
    (hlength : u.entries.length ≤ w.entries.length)
    (hkeeps : ∀ k, u.entry? k = some .directory → w.entry? k = some .directory)
    (hsource : w.isDirectory (root.descend names) = true →
      ∀ k, k.isWithin (locationOf (root.descend names)) = true → w.entry? k = u.entry? k)
    (hcopy : ∀ k e, k.isWithin ((rulesAt (locationOf project)).descend names) = true →
      u.entry? k = some e → w.entry? k = some e) :
    EntryDone w root (project.child vendorDir) names := by
  refine ⟨haskable, fun hdirectory => ?_⟩
  refine ((h.settled (hback hdirectory)).later hu hkeeps (hsource hdirectory) ?_).mono
    (Nat.succ_le_succ hlength)
  rwa [FileTree.locationOf_descend (up_notMem_copy hnames),
    FileTree.locationOf_child (by decide), descend_rules]

/-- An entry stays done while another one is copied. -/
theorem EntryDone.later_of_merges (h : EntryDone u root (project.child vendorDir) other)
    (hu : u.IsTree) (hnames : names ∈ selector.entries) (hother : other ∈ selector.entries)
    (hne : other ≠ names) (hdirectory : u.isDirectory (root.descend names) = true)
    (hmerges : Merges (locationOf project)
      (Below (locationOf (root.descend names)) ((rulesAt (locationOf project)).descend names)) u w)
    (hseparate : Separate w selector root project) :
    EntryDone w root (project.child vendorDir) other := by
  obtain ⟨l, hresolve, -⟩ := isDirectory_iff.1 hdirectory
  obtain ⟨-, r, hroot, -⟩ := FileTree.resolve_descend_iff.1 hresolve
  have hseparates : Separates (locationOf project) (Below (locationOf (root.descend names))
      ((rulesAt (locationOf project)).descend names)) :=
    Below.separates (hseparate names hnames (hmerges.isDirectory hdirectory))
      (isWithin_rulesAt _ names)
  have hkeeps := fun k => hmerges.keeps_directory (k := k)
  refine h.later hu hother ?_ (fun hwdirectory => ?_) hmerges.length_le hkeeps
    (fun hwdirectory k hk => ?_) (fun k e hk he => ?_)
  · exact FileTree.resolve_ne_nameTooLong (FileTree.resolve_mono hkeeps hroot)
      (fun name hname =>
        LanguageSelector.size_of_mem_copy hother name (List.mem_cons_of_mem _ hname)) h.askable
  · exact hmerges.isDirectory_of_apart hseparates hroot (up_notMem_entry hother)
      (hseparate other hother hwdirectory) hwdirectory
  · exact hmerges.entry?_outside hseparates ((hseparate other hother hwdirectory).not_isWithin hk)
  · refine hmerges.keeps_of_places hseparates (fun l place hbelow => ?_) he
    obtain ⟨rel, -, rfl⟩ := hbelow
    exact Location.not_isWithin_below
      ((apart_entries _ hnames hother hne).not_isWithin hk) rel

/-- An entry stays done when the configuration is put. -/
theorem EntryDone.later_of_put (h : EntryDone u root (project.child vendorDir) names)
    (hu : u.IsTree) (hnames : names ∈ selector.entries) {content : List UInt8} {executable : Bool}
    (hfile : u.entry? ((locationOf project).child Configuration.fileName) ≠ some .directory)
    (hput : w = u.put ((locationOf project).child Configuration.fileName)
      (.file content executable))
    (hseparate : Separate w selector root project) :
    EntryDone w root (project.child vendorDir) names := by
  have hkeeps := FileTree.directory_put hfile (.file content executable)
  have hback (k : Location) (hk : w.entry? k = some .directory) : u.entry? k = some .directory := by
    rw [hput] at hk
    exact FileTree.directory_of_put_file hk
  rw [← hput] at hkeeps
  refine h.later hu hnames (fun hlong => h.askable (FileTree.resolve_nameTooLong hback hlong))
    (FileTree.isDirectory_mono hback) (by rw [hput]; exact FileTree.length_le_put _ _ _) hkeeps
    (fun hdirectory k hk => ?_) (fun k e hk he => ?_)
  · rw [hput]
    refine FileTree.entry?_put_of_ne ?_ u _
    rintro rfl
    have hwithin := (hseparate names hnames hdirectory).not_isWithin hk
    rw [Location.child_eq_descend, isWithin_descend] at hwithin
    cases hwithin
  · rw [hput, FileTree.entry?_put_of_ne _ u, he]
    rintro rfl
    have hapart := (apart_configuration (locationOf project)).descend_left names
    rw [hapart.right] at hk
    cases hk

/-- **An entry that has been gone through without a fault is done**, and nothing else has happened
than its merge. -/
theorem vendorEntry_done (htree : s.files.IsTree)
    (hholder : s.files.isDirectory (project.child vendorDir) = true)
    (hnames : names ∈ selector.entries)
    (hrun : (vendorEntry root (project.child vendorDir) names).run.run s = (.ok (), s')) :
    (Separate s'.files selector root project →
      EntryDone s'.files root (project.child vendorDir) names) ∧
    (s'.files = s.files ∨ s.files.isDirectory (root.descend names) = true ∧
      Merges (locationOf project) (Below (locationOf (root.descend names))
        ((rulesAt (locationOf project)).descend names)) s.files s'.files) := by
  obtain ⟨hsame, hasked⟩ | ⟨hdirectory, copied, hcopied, hok⟩ := vendorEntry_cases hrun
  · obtain ⟨haskable, hnot⟩ := hasked rfl
    rw [hsame]
    refine ⟨fun _ => ⟨haskable, ?_⟩, .inl rfl⟩
    rw [hnot]
    nofun
  · rw [hok rfl] at hcopied
    have hmerges := copyDirectory_merges root htree hnames hholder
    rw [hcopied] at hmerges
    have hnow := hmerges.isDirectory hdirectory
    refine ⟨fun hseparate => ⟨?_, fun _ => ?_⟩, .inr ⟨hdirectory, hmerges⟩⟩
    · obtain ⟨l, hresolve, -⟩ := isDirectory_iff.1 hnow
      rw [hresolve]
      nofun
    · exact FileTree.copyDirectory_settled htree (hseparate names hnames hnow)
        (stat_holder hholder) (isWithin_holder _) (up_notMem_copy hnames) hcopied

/-- **All entries are done** after they have been gone through without a fault. -/
theorem vendorEntries_done (htree : s.files.IsTree)
    (hholder : s.files.isDirectory (project.child vendorDir) = true) {x : PUnit}
    (hrun : (forIn selector.entriesSharedFirst PUnit.unit (fun names _ => do
        vendorEntry root (project.child vendorDir) names
        pure (ForInStep.yield PUnit.unit)) : Run VendorFault PUnit).run.run s = (.ok x, s'))
    (hseparate : Separate s'.files selector root project) :
    ∀ names ∈ selector.entries, EntryDone s'.files root (project.child vendorDir) names := by
  have hall := of_run_forIn_ok
    (P := fun done s => (s.files.IsTree ∧ s.files.isDirectory (project.child vendorDir) = true) ∧
      (Separate s.files selector root project →
        ∀ names ∈ done, EntryDone s.files root (project.child vendorDir) names))
    (fun done names s₁ s₂ hsome hc hstep => ?_) ⟨⟨htree, hholder⟩, fun _ => nofun⟩ hrun
  · exact fun names hnames => hall.2 hseparate names (mem_entriesSharedFirst.2 hnames)
  · obtain ⟨⟨htree, hholder⟩, hdone⟩ := hc
    have hmem {other : List String} (hother : other ∈ done ++ [names]) :
        other ∈ selector.entries :=
      mem_entriesSharedFirst.1 (hsome.subset hother)
    have hnames := hmem (List.mem_append_right _ (List.mem_singleton_self _))
    have hlast {P : List String → Prop} (hold : ∀ other ∈ done, P other) (hnew : P names) :
        ∀ other ∈ done ++ [names], P other := by
      rw [List.forall_mem_append]
      exact ⟨hold, by simpa using hnew⟩
    obtain ⟨hnew, hsame | ⟨hdirectory, hmerges⟩⟩ := vendorEntry_done htree hholder hnames hstep
    · rw [hsame] at hnew ⊢
      exact ⟨⟨htree, hholder⟩, fun hseparate => hlast (hdone hseparate) (hnew hseparate)⟩
    · refine ⟨⟨hmerges.isTree htree, hmerges.isDirectory hholder⟩, fun hseparate => ?_⟩
      refine hlast (fun other hother => ?_) (hnew hseparate)
      have hne : other ≠ names := by
        rintro rfl
        exact LanguageSelector.notMem_of_prefix hsome hother
      exact (hdone (hseparate.mono fun _ => hmerges.isDirectory) other hother).later_of_merges
        htree hnames (hmem (List.mem_append_left _ hother)) hne hdirectory hmerges hseparate

/-! ### Stages -/

/-- The trees that vendoring passes through on either way out: a project is made, the entries are
merged, and the configuration is put or not. -/
structure Course (selector : LanguageSelector) (root project : Path) (t m u w : FileTree) :
    Prop where
  made : Makes (project.child vendorDir) t m
  merged : Merges (locationOf project) (Copies u selector root project) m u
  written : w = u ∨ ∃ content executable,
    u.resolve (project.child Configuration.fileName) =
        .ok ((locationOf project).child Configuration.fileName) ∧
      u.entry? ((locationOf project).child Configuration.fileName) ≠ some .directory ∧
      w = u.put ((locationOf project).child Configuration.fileName) (.file content executable)

namespace Course

theorem isTree (h : Course selector root project t m u w) (ht : t.IsTree) : w.IsTree := by
  have hu := h.merged.isTree (h.made.isTree ht)
  obtain rfl | ⟨content, executable, hresolve, hfile, rfl⟩ := h.written
  · exact hu
  · exact hu.put_of_resolve hresolve hfile _

theorem isDirectory_iff (h : Course selector root project t m u w) (p : Path) :
    w.isDirectory p = true ↔ u.isDirectory p = true := by
  obtain rfl | ⟨content, executable, -, hfile, rfl⟩ := h.written
  · exact Iff.rfl
  · exact ⟨FileTree.isDirectory_mono fun _ => FileTree.directory_of_put_file,
      FileTree.isDirectory_mono (FileTree.directory_put hfile _)⟩

theorem keeps_directory (h : Course selector root project t m u w)
    (hk : u.entry? k = some .directory) : w.entry? k = some .directory := by
  obtain rfl | ⟨content, executable, -, hfile, rfl⟩ := h.written
  · exact hk
  · exact FileTree.directory_put hfile _ k hk

theorem entry?_of_ne (h : Course selector root project t m u w)
    (hk : k ≠ (locationOf project).child Configuration.fileName) : w.entry? k = u.entry? k := by
  obtain rfl | ⟨content, executable, -, -, rfl⟩ := h.written
  · rfl
  · exact FileTree.entry?_put_of_ne hk u _

/-- Outside the project nothing changes after it has been made. -/
theorem entry?_outside (h : Course selector root project t m u w)
    (hseparate : Separate w selector root project) (hk : k.isWithin (locationOf project) = false) :
    w.entry? k = m.entry? k := by
  have hseparate := hseparate.mono fun p => (h.isDirectory_iff p).2
  rw [h.entry?_of_ne, h.merged.entry?_outside hseparate.separates hk]
  rintro rfl
  rw [Location.child_eq_descend, isWithin_descend] at hk
  cases hk

/-- **What stays on either way out**: every file but the configuration and those where files of the
rule directories have landed. -/
theorem kept (h : Course selector root project t m u w)
    (hseparate : Separate w selector root project) {content : List UInt8} {executable : Bool}
    (hk : t.entry? k = some (.file content executable))
    (hne : k ≠ (locationOf project).child Configuration.fileName)
    (hnot : ¬ Landed (Copies w selector root project) w k) :
    w.entry? k = some (.file content executable) := by
  have hm := h.made.keeps hk
  have hseparates := (hseparate.mono fun p => (h.isDirectory_iff p).2).separates
  rw [h.entry?_of_ne hne]
  by_contra hchanged
  rw [← hm] at hchanged
  obtain ⟨hnone, -⟩ | hlanded := h.merged.of_ne hseparates hchanged
  · rw [hnone] at hm
    cases hm
  · -- what has landed there is still there when the configuration has been put
    refine hnot (Landed.mono (hlanded.later (fun _ => h.keeps_directory) (h.entry?_of_ne hne)
      fun l place e hcopies hl => ?_) fun _ _ => Copies.mono fun p => (h.isDirectory_iff p).2)
    rw [h.entry?_of_ne, hl]
    rintro rfl
    have houtside := (hseparates _ place hcopies).1
    rw [Location.child_eq_descend, isWithin_descend] at houtside
    cases houtside

end Course

/-! ### Runs -/

/-- The configuration is put where it belongs. -/
theorem put_of_write {content : List UInt8}
    (hwrite : u.write (project.child Configuration.fileName) content = .ok w) :
    ∃ executable,
      u.resolve (project.child Configuration.fileName) =
        .ok ((locationOf project).child Configuration.fileName) ∧
      u.entry? ((locationOf project).child Configuration.fileName) ≠ some .directory ∧
      w = u.put ((locationOf project).child Configuration.fileName) (.file content executable) ∧
      w.stat (project.child Configuration.fileName) =
        .ok ((locationOf project).child Configuration.fileName, .file content executable) := by
  obtain ⟨k, executable, hresolve, hfile, rfl⟩ := FileTree.exists_put_of_write hwrite
  have hk := FileTree.eq_locationOf hresolve
  rw [FileTree.locationOf_child (by decide)] at hk
  rw [← hk]
  refine ⟨executable, hresolve, hfile, rfl, ?_⟩
  exact stat_eq_ok_iff.2 ⟨FileTree.resolve_put hfile _ hresolve,
    FileTree.entry?_put_self (FileTree.names_ne_nil_of_ne hfile) u _⟩

/-- A text that cannot be written changes nothing. -/
theorem writeText_error {p : Path} {text : String} {fault : VendorFault}
    (hrun : (writeText p text).run.run s = (.error fault, s')) : s' = s := by
  rw [writeText, Run.run_files_bind] at hrun
  cases hwrite : s.files.write p (Text.Utf8.encode text) with
  | ok t =>
    rw [hwrite] at hrun
    cases hrun
  | error kind =>
    rw [hwrite] at hrun
    cases hrun
    rfl

/-- A project that has been made has the directory for its rules. -/
theorem isDirectory_of_made {budget : Nat}
    (hmade : (FileTree.makeWithParents budget (project.child vendorDir)).run.run t = (.ok (), m)) :
    m.isDirectory (project.child vendorDir) = true := by
  have hattempts := FileTree.makeWithParents_attempts budget (project.child vendorDir) t
  rw [hmade] at hattempts
  exact hattempts.done () rfl

/-- What vendoring does before it fails. -/
theorem vendor_error (hvalid : LanguageSelector.ofText? language = some selector)
    (htree : s.files.IsTree) {fault : VendorFault}
    (hrun : (vendor language project root).run.run s = (.error fault, s')) :
    ∃ m, Makes (project.child vendorDir) s.files m ∧
      Merges (locationOf project) (Copies s'.files selector root project) m s'.files := by
  rw [vendor] at hrun
  have hmakes := (FileTree.makeWithParents_attempts missingLimit (project.child vendorDir)
    s.files).makes
  obtain hmade | ⟨_, s₀, hmade, hrun⟩ := run_bind_eq_error hrun
  · rw [← Run.files_of_run_onFiles hmade] at hmakes
    exact ⟨s'.files, hmakes, .none _⟩
  have hmade := Run.run_onFiles_adapt_ok hmade
  rw [hmade] at hmakes
  refine ⟨s₀.files, hmakes, ?_⟩
  obtain htold | ⟨_, s₁, htold, hrun⟩ := run_bind_eq_error hrun
  · cases htold
  have hfiles : s₁.files = s₀.files := by
    cases htold
    rfl
  rw [hvalid] at hrun
  dsimp only at hrun
  have htree := hmakes.isTree htree
  have hholder := isDirectory_of_made hmade
  rw [← hfiles] at htree hholder ⊢
  obtain hcopied | ⟨_, s₂, hcopied, hrun⟩ := run_bind_eq_error hrun
  · exact vendorEntries_merges htree hholder hcopied
  -- after the entries nothing changes before the configuration is written, and then it is done
  have hmerges := vendorEntries_merges htree hholder hcopied
  obtain hmapped | ⟨text, s₃, hmapped, hrun⟩ := run_bind_eq_error hrun
  · rw [Run.run_ofExcept] at hmapped
    obtain rfl : s₂ = s' := congrArg Prod.snd hmapped
    exact hmerges
  obtain ⟨-, hsame⟩ := Run.run_ofExcept_ok hmapped
  rw [hsame] at hrun
  obtain hwritten | ⟨_, s₄, -, hrun⟩ := run_bind_eq_error hrun
  · rwa [writeText_error hwritten]
  · cases hrun

/-- Steps of vendoring that all succeed are a course. -/
theorem Course.of_steps {s₁ s₂ : Session} {content : List UInt8} {x : PUnit}
    (htree : s.files.IsTree)
    (hmade : (FileTree.makeWithParents missingLimit (project.child vendorDir)).run.run s.files =
      (.ok (), s₁.files))
    (hcopied : (forIn selector.entriesSharedFirst PUnit.unit (fun names _ => do
        vendorEntry root (project.child vendorDir) names
        pure (ForInStep.yield PUnit.unit)) : Run VendorFault PUnit).run.run s₁ = (.ok x, s₂))
    (hwrite : s₂.files.write (project.child Configuration.fileName) content = .ok s'.files) :
    Course selector root project s.files s₁.files s₂.files s'.files := by
  have hmakes := (FileTree.makeWithParents_attempts missingLimit (project.child vendorDir)
    s.files).makes
  rw [hmade] at hmakes
  obtain ⟨executable, hresolve, hfile, hput, -⟩ := put_of_write hwrite
  exact ⟨hmakes, vendorEntries_merges (hmakes.isTree htree) (isDirectory_of_made hmade) hcopied,
    .inr ⟨_, executable, hresolve, hfile, hput⟩⟩

/-- **Vendoring takes its course on either way out.** -/
theorem vendor_course (hvalid : LanguageSelector.ofText? language = some selector)
    (htree : s.files.IsTree) {result : Except VendorFault Path}
    (hrun : (vendor language project root).run.run s = (result, s')) :
    ∃ m u, Course selector root project s.files m u s'.files := by
  cases result with
  | error fault =>
    obtain ⟨m, hmakes, hmerges⟩ := vendor_error hvalid htree hrun
    exact ⟨m, s'.files, hmakes, hmerges, .inl rfl⟩
  | ok path =>
    obtain ⟨-, s₁, s₂, text, hmade, hcopied, -, hwrite⟩ := vendor_ok hvalid hrun
    exact ⟨s₁.files, s₂.files, .of_steps htree hmade hcopied hwrite⟩

/-- **When vendoring has succeeded, it is done**: there is a directory for the rules, every entry is
done and the configuration is written. -/
theorem vendor_done (hvalid : LanguageSelector.ofText? language = some selector)
    (htree : s.files.IsTree) (hseparate : Separate s'.files selector root project) {path : Path}
    (hrun : (vendor language project root).run.run s = (.ok path, s')) :
    s'.files.isDirectory (project.child vendorDir) = true ∧
    (∀ names ∈ selector.entries, EntryDone s'.files root (project.child vendorDir) names) ∧
    ∃ text executable, Configuration.generate selector.vendoredDirs = .ok text ∧
      s'.files.stat (project.child Configuration.fileName) =
        .ok ((locationOf project).child Configuration.fileName,
          .file (Text.Utf8.encode text) executable) := by
  obtain ⟨-, s₁, s₂, text, hmade, hcopied, hgenerate, hwrite⟩ := vendor_ok hvalid hrun
  have hcourse : Course selector root project s.files s₁.files s₂.files s'.files :=
    .of_steps htree hmade hcopied hwrite
  have hback (p : Path) := (hcourse.isDirectory_iff p).2
  have hs₁ := hcourse.made.isTree htree
  have hholder := isDirectory_of_made hmade
  obtain ⟨executable, -, hfile, hput, hwritten⟩ := put_of_write hwrite
  refine ⟨hback _ (hcourse.merged.isDirectory hholder), fun names hnames => ?_, text, executable,
    hgenerate, hwritten⟩
  exact (vendorEntries_done hs₁ hholder hcopied (hseparate.mono hback) names hnames).later_of_put
    (hcourse.merged.isTree hs₁) hnames hfile hput hseparate

/-! ### Vendoring again -/

/-- An entry that is done is done again without changing anything. -/
theorem EntryDone.run (h : EntryDone s.files root (project.child vendorDir) names)
    (hnames : names ∈ selector.entries) (hseparate : Separate s.files selector root project) :
    ∃ s', (vendorEntry root (project.child vendorDir) names).run.run s = (.ok (), s') ∧
      s'.files = s.files := by
  have hasked : (Run.ofExcept ((s.files.hasDirectory (root.descend names)).mapError
      VendorFault.file)).run.run s = (.ok (s.files.isDirectory (root.descend names)), s) := by
    rw [Run.run_ofExcept, FileTree.hasDirectory_eq_ok_iff.2 ⟨h.askable, rfl⟩]
    rfl
  rw [vendorEntry, Run.run_files_bind, run_bind_ok hasked]
  cases hdirectory : s.files.isDirectory (root.descend names) with
  | false => exact ⟨_, rfl, rfl⟩
  | true =>
    have hapart : Apart (locationOf (root.descend names))
        ((locationOf (project.child vendorDir)).descend ("rules" :: names)) := by
      rw [FileTree.locationOf_child (by decide), descend_rules, rulesAt, Location.descend_descend]
      exact ((hseparate names hnames hdirectory).symm.descend_left _).symm
    have hcopied := (h.settled hdirectory).run_copyDirectory hapart
    have hcopying := Run.run_onFiles ((FileTree.copyDirectory (root.descend names)
      (project.child vendorDir) ("rules" :: names)).adapt VendorFault.copy) s
    rw [run_adapt, hcopied] at hcopying
    rw [if_pos rfl, run_bind_ok hcopying]
    exact ⟨_, rfl, rfl⟩

/-- **What is done is done again without changing anything.** -/
theorem vendor_again (hvalid : LanguageSelector.ofText? language = some selector)
    (hholder : w.isDirectory (project.child vendorDir) = true)
    (hdone : ∀ names ∈ selector.entries, EntryDone w root (project.child vendorDir) names)
    (hseparate : Separate w selector root project) {text : String}
    (hgenerate : Configuration.generate selector.vendoredDirs = .ok text) {executable : Bool}
    (hwritten : w.stat (project.child Configuration.fileName) =
      .ok (k, .file (Text.Utf8.encode text) executable)) (hs : s.files = w) :
    ∃ s', (vendor language project root).run.run s =
      (.ok (project.child Configuration.fileName), s') ∧ s'.files = w := by
  subst hs
  have hmade := Run.run_onFiles ((FileTree.makeWithParents missingLimit
    (project.child vendorDir)).adapt VendorFault.file) s
  rw [run_adapt, missingLimit, FileTree.makeWithParents_of_isDirectory _ hholder] at hmade
  rw [vendor, missingLimit, run_bind_ok hmade]
  obtain ⟨s₁, htold, hs₁⟩ : ∃ s₁, (Run.tell (.remark
      s!"Vendoring Tempo lints to {project.child vendorDir}...") : Run VendorFault Unit).run.run s =
        (.ok (), s₁) ∧ s₁.files = s.files := ⟨_, rfl, rfl⟩
  obtain ⟨s₂, hentries, hs₂⟩ : ∃ s₂,
      (forIn selector.entriesSharedFirst PUnit.unit (fun names _ => do
        vendorEntry root (project.child vendorDir) names
        pure (ForInStep.yield PUnit.unit)) : Run VendorFault PUnit).run.run s₁ =
          (.ok PUnit.unit, s₂) ∧ s₂.files = s.files := by
    refine exists_run_forIn_of_forall (P := fun s' : Session => s'.files = s.files)
      (fun names hnames s' hs' => ?_) hs₁
    have hnames := mem_entriesSharedFirst.1 hnames
    rw [← hs'] at hseparate hdone ⊢
    exact (hdone names hnames).run hnames hseparate
  have hmapped : (Run.ofExcept ((Configuration.generate selector.vendoredDirs).mapError
      VendorFault.configuration)).run.run s₂ = (.ok text, s₂) := by
    rw [Run.run_ofExcept, hgenerate]
    rfl
  have hwriting : (writeText (project.child Configuration.fileName) text).run.run s₂ =
      (.ok (), s₂) := by
    rw [writeText, Run.run_files_bind, hs₂, FileTree.write_of_stat hwritten, ← hs₂]
    rfl
  rw [run_bind_ok htold, hvalid]
  dsimp only
  rw [run_bind_ok hentries, run_bind_ok hmapped, run_bind_ok hwriting]
  exact ⟨_, rfl, hs₂⟩

/-! ### Projects with something in them -/

/-- What has become of the files after rules have been vendored into a project that may have held
anything: the configuration is written, every file of a rule directory has landed, and every other
file is kept. -/
structure Merged (selector : LanguageSelector) (root project : Path) (t w : FileTree) : Prop where
  configuration : ∃ text executable,
    Configuration.generate selector.vendoredDirs = .ok text ∧
      w.entry? ((locationOf project).child Configuration.fileName) =
        some (.file (Text.Utf8.encode text) executable)
  landed : ∀ l place content executable, Copies w selector root project l place →
    t.entry? l = some (.file content executable) →
      w.entry? (w.landing place) = some (.file content executable)
  kept : ∀ k content executable, t.entry? k = some (.file content executable) →
    k ≠ (locationOf project).child Configuration.fileName →
      ¬ Landed (Copies w selector root project) w k →
        w.entry? k = some (.file content executable)

/-- Every file of a rule directory has landed when all entries are done. -/
theorem Course.landed (h : Course selector root project t m u w) (ht : t.IsTree)
    (hseparate : Separate w selector root project)
    (hdone : ∀ names ∈ selector.entries, EntryDone w root (project.child vendorDir) names)
    {content : List UInt8} {executable : Bool} (hcopies : Copies w selector root project l place)
    (hl : t.entry? l = some (.file content executable)) :
    w.entry? (w.landing place) = some (.file content executable) := by
  have hsource := h.entry?_outside hseparate (hseparate.separates l place hcopies).1
  rw [h.made.keeps hl] at hsource
  obtain ⟨names, hnames, hdirectory, rel, rfl, rfl⟩ := hcopies
  have hlanded := ((hdone names hnames).settled hdirectory).landed (h.isTree ht)
    (isDirectory_iff_stat.1 hdirectory) hsource
  rwa [FileTree.locationOf_descend (up_notMem_copy hnames), FileTree.locationOf_child (by decide),
    descend_rules] at hlanded

/-- **Vendoring changes its own files only, and a second time none.** On either way out, files stay
what they are outside the configuration and the places of the rule directories. If it succeeds, the
configuration is written, every file of the rule directories has landed, every other file is kept,
and whoever does it again has the same result and changes no file. -/
theorem vendor_merges (hvalid : LanguageSelector.ofText? language = some selector)
    (htree : s.files.IsTree) (hseparate : Separate s'.files selector root project)
    {result : Except VendorFault Path}
    (hrun : (vendor language project root).run.run s = (result, s')) :
    (∀ k content executable, s.files.entry? k = some (.file content executable) →
      k ≠ (locationOf project).child Configuration.fileName →
      (∀ names ∈ selector.entries, s'.files.isDirectory (root.descend names) = true →
        k.isWithin ((rulesAt (locationOf project)).descend names) = false) →
      s'.files.entry? k = some (.file content executable)) ∧
    ∀ path, result = .ok path → path = project.child Configuration.fileName ∧
      Merged selector root project s.files s'.files ∧
      ∀ again : Session, again.files = s'.files → ∃ after,
        (vendor language project root).run.run again = (.ok path, after) ∧
          after.files = s'.files := by
  obtain ⟨m, u, hcourse⟩ := vendor_course hvalid htree hrun
  constructor
  · intro k content executable hk hne houtside
    refine hcourse.kept hseparate hk hne fun hlanded => ?_
    obtain ⟨l, place, ⟨names, hnames, hdirectory, rel, -, rfl⟩, hwithin⟩ := hlanded.exists_place
    have hnot := Location.not_isWithin_below (houtside names hnames hdirectory) rel
    rw [hwithin] at hnot
    cases hnot
  · rintro path rfl
    obtain ⟨rfl, -⟩ := vendor_ok hvalid hrun
    obtain ⟨hholder, hdone, text, executable, hgenerate, hwritten⟩ :=
      vendor_done hvalid htree hseparate hrun
    refine ⟨rfl, ⟨⟨text, executable, hgenerate, (stat_eq_ok_iff.1 hwritten).2⟩,
      fun l place content executable => hcourse.landed htree hseparate hdone,
      fun k content executable => hcourse.kept hseparate⟩, fun again hagain => ?_⟩
    exact vendor_again hvalid hholder hdone hseparate hgenerate hwritten hagain

/-- A project into which an older rule has been vendored, and rules of another language. -/
def staleProject : FileTree :=
  ⟨[(⟨.working, ["rules"]⟩, .directory), (⟨.working, ["rules", "rust"]⟩, .directory),
    (⟨.working, ["rules", "rust", "a.yml"]⟩, .file (Text.Utf8.encode "id: new\n") false),
    (⟨.working, ["out"]⟩, .directory), (⟨.working, ["out", ".ast-grep"]⟩, .directory),
    (⟨.working, ["out", ".ast-grep", "rules"]⟩, .directory),
    (⟨.working, ["out", ".ast-grep", "rules", "rust"]⟩, .directory),
    (⟨.working, ["out", ".ast-grep", "rules", "rust", "a.yml"]⟩,
      .file (Text.Utf8.encode "id: old\n") true),
    (⟨.working, ["out", ".ast-grep", "rules", "typescript"]⟩, .directory),
    (⟨.working, ["out", ".ast-grep", "rules", "typescript", "b.yml"]⟩,
      .file (Text.Utf8.encode "id: other\n") false)]⟩

/-- The rules and the project lie beside each other. -/
theorem separate_beside (w : FileTree) :
    Separate w (.only .rust) ⟨.working, ["rules"]⟩ ⟨.working, ["out"]⟩ := by
  have hall : ∀ names ∈ (LanguageSelector.only .rust).entries,
      (locationOf (Path.descend ⟨.working, ["rules"]⟩ names)).isWithin
          (locationOf ⟨.working, ["out"]⟩) = false ∧
        (locationOf ⟨.working, ["out"]⟩).isWithin
          (locationOf (Path.descend ⟨.working, ["rules"]⟩ names)) = false := by
    decide
  exact fun names hnames _ => ⟨(hall names hnames).1, (hall names hnames).2⟩

/-- An older rule is replaced, the rules of another language are kept, and doing it again changes
nothing. -/
theorem staleProject_merged :
    let ran := vendorRust staleProject ⟨.working, ["out"]⟩
    ran.1 = .ok ⟨.working, ["out", "sgconfig.yml"]⟩ ∧
    ran.2.files.entry? ⟨.working, ["out", ".ast-grep", "rules", "rust", "a.yml"]⟩ =
      some (.file (Text.Utf8.encode "id: new\n") false) ∧
    ran.2.files.entry? ⟨.working, ["out", ".ast-grep", "rules", "typescript", "b.yml"]⟩ =
      some (.file (Text.Utf8.encode "id: other\n") false) ∧
    (vendorRust ran.2.files ⟨.working, ["out"]⟩).2.files = ran.2.files := by
  have hvalid : LanguageSelector.ofText? "rust" = some (.only .rust) := by decide
  have htree : staleProject.IsTree := .of_entries (by decide) (by decide)
  have hpath : (vendorRust staleProject ⟨.working, ["out"]⟩).1 =
      .ok ⟨.working, ["out", "sgconfig.yml"]⟩ := by
    decide +kernel
  have hdirectory : (vendorRust staleProject ⟨.working, ["out"]⟩).2.files.isDirectory
      ⟨.working, ["rules", "rust"]⟩ = true := by
    decide +kernel
  have hplace : (vendorRust staleProject ⟨.working, ["out"]⟩).2.files.entry?
      ⟨.working, ["out", ".ast-grep", "rules", "rust", "a.yml"]⟩ ≠ some .directory := by
    decide +kernel
  generalize hran : vendorRust staleProject ⟨.working, ["out"]⟩ = ran at hpath hdirectory hplace ⊢
  have hrun : ran = (.ok ⟨.working, ["out", "sgconfig.yml"]⟩, ran.2) := Prod.ext hpath rfl
  obtain ⟨hkept, hdone⟩ := vendor_merges hvalid htree (separate_beside _) (hran.trans hrun)
  obtain ⟨-, hmerged, hagain⟩ := hdone _ rfl
  obtain ⟨after, hafter, hfiles⟩ := hagain { files := ran.2.files } rfl
  refine ⟨hpath, ?_, hkept _ _ _ (by decide +kernel) (by decide) ?_, ?_⟩
  · have hlanded := hmerged.landed ⟨.working, ["rules", "rust", "a.yml"]⟩
      ⟨.working, ["out", ".ast-grep", "rules", "rust", "a.yml"]⟩ _ _
      ⟨["rust"], by decide, hdirectory, ["a.yml"], rfl, rfl⟩ rfl
    rwa [FileTree.landing, if_neg hplace] at hlanded
  · intro names hnames _
    have hall : ∀ names ∈ (LanguageSelector.only .rust).entries, Location.isWithin
        ⟨.working, ["out", ".ast-grep", "rules", "typescript", "b.yml"]⟩
          ((rulesAt (locationOf ⟨.working, ["out"]⟩)).descend names) = false := by
      decide
    exact hall names hnames
  · rw [vendorRust, hafter]
    exact hfiles

/-- A project in which a directory stands in the place of a rule. -/
def blockedProject : FileTree :=
  ⟨[(⟨.working, ["rules"]⟩, .directory), (⟨.working, ["rules", "rust"]⟩, .directory),
    (⟨.working, ["rules", "rust", "a.yml"]⟩, .file (Text.Utf8.encode "id: a\n") false),
    (⟨.working, ["out"]⟩, .directory), (⟨.working, ["out", ".ast-grep"]⟩, .directory),
    (⟨.working, ["out", ".ast-grep", "rules"]⟩, .directory),
    (⟨.working, ["out", ".ast-grep", "rules", "rust"]⟩, .directory),
    (⟨.working, ["out", ".ast-grep", "rules", "rust", "a.yml"]⟩, .directory)]⟩

/-- Not every rule is found at the place that corresponds to it. Where a directory stands, the rule is
put into it without a word, and so the project does not have the rules that were vendored. -/
theorem blockedProject_misses_rule :
    blockedProject.IsTree ∧
      Separate (vendorRust blockedProject ⟨.working, ["out"]⟩).2.files (.only .rust)
        ⟨.working, ["rules"]⟩ ⟨.working, ["out"]⟩ ∧
      (vendorRust blockedProject ⟨.working, ["out"]⟩).1 =
        .ok ⟨.working, ["out", "sgconfig.yml"]⟩ ∧
      (vendorRust blockedProject ⟨.working, ["out"]⟩).2.files.entry?
          ⟨.working, ["out", ".ast-grep", "rules", "rust", "a.yml"]⟩ = some .directory ∧
      (vendorRust blockedProject ⟨.working, ["out"]⟩).2.files.entry?
          ⟨.working, ["out", ".ast-grep", "rules", "rust", "a.yml", "a.yml"]⟩ =
        some (.file (Text.Utf8.encode "id: a\n") false) ∧
      Rules.ids (vendorRust blockedProject ⟨.working, ["out"]⟩).2.files (.only .rust)
        ⟨.working, ["rules"]⟩ = .ok ["a"] ∧
      Rules.ids (vendorRust blockedProject ⟨.working, ["out"]⟩).2.files (.only .rust)
        ⟨.working, ["out", ".ast-grep", "rules"]⟩ = .ok [] := by
  refine ⟨.of_entries (by decide) (by decide), separate_beside _, ?_, ?_, ?_, ?_, ?_⟩ <;>
    decide +kernel

end LintReport.Rules
