import LintReport.Proofs.FileTree.Tree

/-!
# Looking up Paths

A path can be looked up unless it, or a name in it, is too long; whether it is depends on the
directories on its way only. So trees with the same directories can be asked about the same paths,
and a file that is added is found by its own path and changes nothing about any other.

## Main definitions

* `FileTree.isFile`: whether a location holds a file.
* `FileTree.GainsFile`: a tree that has got one more file.

## Main results

* `IsTree.look_descend`: what is found below a location.
* `look_eq_error_iff`, `exists_look_iff`: **when a path can be looked up**.
* `resolve_congr`, `look_congr`, `read_congr`: trees that hold the same answer the same.
* `GainsFile.of_write`: **a file that is written where nothing was** changes nothing else.
* `GainsFile.exists_look_iff`, `GainsFile.read_iff`: what can still be looked up and read.
-/

namespace LintReport

namespace FileTree

variable {t u : FileTree} {b k l : Location} {p dir : Path} {name : String} {names : List String}
  {fault : FileFault}

/-! ### Ways that end at a name that is too long -/

/-- A path that can be looked up is not too long, unless it has a null character. -/
theorem short_of_look {found : Option (Location × Entry)} (h : t.look p = .ok found)
    (hnull : ∀ name ∈ p.names, '\x00' ∉ name.toList) : p.text.utf8ByteSize < pathLimit := by
  by_contra hlong
  have hstat : t.stat p = .error .nameTooLong := by
    rw [stat, resolve, if_neg (by simpa using hnull), if_pos (Nat.not_lt.1 hlong)]
    rfl
  rw [look, hstat] at h
  cases h

/-- A way without a name that is too long does not end for that reason. -/
theorem walk_ne_nameTooLong (hsizes : ∀ name ∈ names, name.utf8ByteSize ≤ nameLimit) :
    names.foldlM t.step k ≠ .error .nameTooLong := by
  induction names generalizing k with
  | nil =>
    intro h
    cases h
  | cons name names ih =>
    rw [List.forall_mem_cons] at hsizes
    rw [List.foldlM_cons, step]
    cases t.entry? k with
    | none =>
      intro h
      cases h
    | some e =>
      cases e with
      | file content executable =>
        intro h
        cases h
      | directory =>
        dsimp only
        split
        · exact ih hsizes.2
        · rw [if_neg (Nat.not_lt.2 hsizes.1)]
          exact ih hsizes.2

/-- What is said about a path that cannot be used does not depend on the tree. -/
theorem resolve_of_not_isUsable (h : ¬ p.IsUsable) : t.resolve p = u.resolve p := by
  rw [resolve, resolve]
  split
  · rfl
  · next hnull =>
    split
    · rfl
    · next hlong => exact absurd ⟨by simpa using hnull, Nat.not_le.1 hlong⟩ h

/-- From where a path leads, names that are not too long do not make it end for that reason. -/
theorem resolve_ne_nameTooLong (hp : u.resolve p = .ok b)
    (hsizes : ∀ name ∈ names, name.utf8ByteSize ≤ nameLimit)
    (h : t.resolve (p.descend names) ≠ .error .nameTooLong) :
    u.resolve (p.descend names) ≠ .error .nameTooLong := by
  by_cases husable : (p.descend names).IsUsable
  · rw [resolve_descend husable hp]
    exact walk_ne_nameTooLong hsizes
  · rwa [resolve_of_not_isUsable husable (u := t)]

/-- A way that ends at a name that is too long ends there in every tree that has the directories. -/
theorem walk_nameTooLong (h : ∀ k, t.entry? k = some .directory → u.entry? k = some .directory)
    (hlong : names.foldlM t.step k = .error .nameTooLong) :
    names.foldlM u.step k = .error .nameTooLong := by
  induction names generalizing k with
  | nil => cases hlong
  | cons name names ih =>
    rw [List.foldlM_cons] at hlong ⊢
    cases hstep : t.step k name with
    | ok l =>
      rw [hstep] at hlong
      rw [step_mono (h k) hstep]
      exact ih hlong
    | error kind =>
      rw [hstep] at hlong
      obtain rfl : kind = .nameTooLong := Except.error.inj hlong
      have hk : t.entry? k = some .directory := by
        rw [step] at hstep
        split at hstep
        · cases hstep
        · cases hstep
        · next hk => exact hk
      rw [step, hk] at hstep
      rw [step, h k hk, hstep]
      rfl

theorem resolve_nameTooLong (h : ∀ k, t.entry? k = some .directory → u.entry? k = some .directory)
    (hlong : t.resolve p = .error .nameTooLong) : u.resolve p = .error .nameTooLong := by
  by_cases husable : p.IsUsable
  · rw [resolve_of_isUsable husable] at hlong ⊢
    exact walk_nameTooLong h hlong
  · rw [← hlong, resolve_of_not_isUsable husable]

/-! ### What is found -/

/-- A path cannot be looked up exactly when it, or a name in it, is too long. -/
theorem look_eq_error_iff :
    t.look p = .error fault ↔ t.stat p = .error .nameTooLong ∧ fault = ⟨.nameTooLong, p.text⟩ := by
  rw [look]
  split
  · next hstat => simp [hstat]
  · next hstat => simp [hstat, eq_comm]
  · next kind hkind hstat =>
    rw [hstat]
    simp only [reduceCtorEq, Except.error.injEq, false_iff, not_and]
    exact fun h => absurd h hkind

/-- **A path can be looked up** unless it leads nowhere for being too long. -/
theorem exists_look_iff :
    (∃ found, t.look p = .ok found) ↔ t.resolve p ≠ .error .nameTooLong := by
  rw [look, stat]
  cases t.resolve p with
  | error kind => cases kind <;> simp [bind, Except.bind]
  | ok l => cases hentry : t.entry? l <;> simp [bind, Except.bind, hentry]

/-- Whether there is a file cannot be said exactly when the path cannot be looked up. -/
theorem hasFile_eq_error_iff : t.hasFile p = .error fault ↔ t.look p = .error fault := by
  rw [hasFile]
  cases t.look p <;> simp [bind, Except.bind, pure, Except.pure]

/-- What is looked up and found is there. -/
theorem stat_of_look {found : Location × Entry} (h : t.look p = .ok (some found)) :
    t.stat p = .ok found := by
  rw [look] at h
  split at h
  · next what hstat => rw [hstat, Option.some.inj (Except.ok.inj h)]
  · cases h
  · cases h

/-- **What is found below a location** is what is there, if the names on the way and the path are
not too long. -/
theorem IsTree.look_descend (ht : t.IsTree) (hp : t.resolve p = .ok b) (hdown : ".." ∉ names)
    (hsizes : ∀ name ∈ names, name.utf8ByteSize ≤ nameLimit)
    (husable : (p.descend names).IsUsable) :
    t.look (p.descend names) =
      .ok ((t.entry? (b.descend names)).map fun e => (b.descend names, e)) := by
  cases hentry : t.entry? (b.descend names) with
  | some e =>
    have hwalk : names.foldlM t.step b = .ok (b.descend names) :=
      (walk_eq_ok_iff hdown).2
        ⟨rfl, hsizes, fun i hi => ht.above (by rw [hentry]; rfl) hi⟩
    have hstat := stat_eq_ok_iff.2 ⟨resolve_descend_iff.2 ⟨husable, b, hp, hwalk⟩, hentry⟩
    rw [look, hstat]
    rfl
  | none =>
    cases hstat : t.stat (p.descend names) with
    | ok found =>
      obtain ⟨hresolve, hfound⟩ := stat_eq_ok_iff.1 hstat
      obtain ⟨-, m, hm, hwalk⟩ := resolve_descend_iff.1 hresolve
      obtain rfl : b = m := Except.ok.inj (hp.symm.trans hm)
      rw [((walk_eq_ok_iff hdown).1 hwalk).1, hentry] at hfound
      cases hfound
    | error kind =>
      have hkind : kind ≠ .nameTooLong := by
        rintro rfl
        rw [stat, resolve_descend husable hp] at hstat
        cases hwalk : names.foldlM t.step b with
        | error kind =>
          rw [hwalk] at hstat
          cases hstat
          exact walk_ne_nameTooLong hsizes hwalk
        | ok l =>
          rw [hwalk] at hstat
          dsimp only [bind, Except.bind] at hstat
          split at hstat <;> cases hstat
      rw [look, hstat]
      cases kind with
      | nameTooLong => exact absurd rfl hkind
      | _ => rfl

/-- A name that is looked up in a directory makes a path that can be used. -/
theorem isUsable_of_look_child (hdir : t.stat dir = .ok (l, .directory))
    (hnull : '\x00' ∉ name.toList) {found : Option (Location × Entry)}
    (h : t.look (dir.child name) = .ok found) : (dir.child name).IsUsable := by
  have hnulls : ∀ other ∈ (dir.child name).names, '\x00' ∉ other.toList := by
    intro other hother
    obtain hother | hother := List.mem_append.1 hother
    · exact (resolve_eq_ok_iff.1 (stat_eq_ok_iff.1 hdir).1).1.noNull other hother
    · rwa [List.mem_singleton.1 hother]
  exact ⟨hnulls, short_of_look h hnulls⟩

/-- A name that is looked up in a directory is not too long. -/
theorem size_of_look_child (hdir : t.stat dir = .ok (l, .directory)) (hup : name ≠ "..")
    (hnull : '\x00' ∉ name.toList) {found : Option (Location × Entry)}
    (h : t.look (dir.child name) = .ok found) : name.utf8ByteSize ≤ nameLimit := by
  obtain ⟨hresolve, hl⟩ := stat_eq_ok_iff.1 hdir
  by_contra hlong
  have hstep : t.step l name = .error .nameTooLong := by
    rw [step, hl]
    dsimp only
    rw [if_neg (by simpa using hup), if_pos (Nat.not_le.1 hlong)]
  have hstat : t.stat (dir.child name) = .error .nameTooLong := by
    rw [stat, Path.child_eq_descend, resolve_descend (isUsable_of_look_child hdir hnull h) hresolve,
      List.foldlM_cons, hstep]
    rfl
  rw [look, hstat] at h
  cases h

/-! ### Files -/

/-- Whether a location holds a file. -/
def isFile (t : FileTree) (l : Location) : Bool :=
  match t.entry? l with
  | some (.file ..) => true
  | _ => false

theorem isFile_iff :
    t.isFile l = true ↔ ∃ content executable, t.entry? l = some (.file content executable) := by
  rw [isFile]
  cases t.entry? l with
  | none => simp
  | some e => cases e <;> simp

/-- Whether there is a file can be said just where a path can be looked up. -/
theorem exists_hasFile_iff :
    (∃ found, t.hasFile p = .ok found) ↔ ∃ what, t.look p = .ok what := by
  rw [hasFile]
  cases t.look p <;> simp [bind, Except.bind, pure, Except.pure]

/-- A name that is not too long leads from a directory to its entry. -/
theorem resolve_child (hdir : t.stat dir = .ok (l, .directory)) (hup : name ≠ "..")
    (hsize : name.utf8ByteSize ≤ nameLimit) (husable : (dir.child name).IsUsable) :
    t.resolve (dir.child name) = .ok (l.child name) := by
  obtain ⟨hresolve, hl⟩ := stat_eq_ok_iff.1 hdir
  refine resolve_descend_iff.2 ⟨husable, l, hresolve, walk_cons.2 ⟨l.child name, ?_, rfl⟩⟩
  exact step_eq_ok_iff.2 ⟨hl, .inr ⟨hup, hsize, rfl⟩⟩

/-- A file is found below a directory where there is one. -/
theorem IsTree.hasFile_child (ht : t.IsTree) (hdir : t.stat dir = .ok (l, .directory))
    (hup : name ≠ "..") (hsize : name.utf8ByteSize ≤ nameLimit)
    (husable : (dir.child name).IsUsable) :
    t.hasFile (dir.child name) = .ok (t.isFile (l.child name)) := by
  have hlook := ht.look_descend (stat_eq_ok_iff.1 hdir).1 (by simpa using Ne.symm hup)
    (by simpa using hsize) husable
  rw [hasFile, Path.child_eq_descend, hlook, isFile, Location.child_eq_descend]
  cases t.entry? (l.descend [name]) with
  | none => rfl
  | some e => cases e <;> rfl

/-- A file is found where it can be read. -/
theorem hasFile_iff : t.hasFile p = .ok true ↔ ∃ octets, t.read p = .ok octets :=
  ⟨exists_read_of_hasFile, fun ⟨_, h⟩ => hasFile_of_read h⟩

/-- What is read at a path is the content of the file that it leads to. -/
theorem read_eq_ok_iff {octets : List UInt8} :
    t.read p = .ok octets ↔
      ∃ l executable, t.resolve p = .ok l ∧ t.entry? l = some (.file octets executable) := by
  cases hresolve : t.resolve p with
  | error kind => simp [read, stat, hresolve, bind, Except.bind]
  | ok l =>
    rw [read_of_resolve hresolve]
    cases hentry : t.entry? l with
    | none => simp [hentry]
    | some e =>
      cases e with
      | directory => simp [hentry]
      | file content executable =>
        simp only [hentry, Except.ok.injEq, Option.some.injEq, Entry.file.injEq, exists_and_left,
          exists_eq_left', exists_eq', and_true]

/-- What can be read below a path lies in a directory that the path leads to. -/
theorem exists_stat_of_read_child (hname : name ≠ "..") {octets : List UInt8}
    (hread : t.read (dir.child name) = .ok octets) :
    ∃ l, t.stat dir = .ok (l, .directory) ∧ name ∈ t.namesIn l := by
  obtain ⟨k, executable, hresolve, hentry⟩ := read_eq_ok_iff.1 hread
  rw [Path.child_eq_descend, resolve_descend_iff] at hresolve
  obtain ⟨-, l, hdir, hwalk⟩ := hresolve
  obtain ⟨m, hstep, hend⟩ := walk_cons.1 hwalk
  obtain rfl : m = k := Except.ok.inj hend
  obtain ⟨hl, ⟨hup, -⟩ | ⟨-, -, rfl⟩⟩ := step_eq_ok_iff.1 hstep
  · exact absurd hup hname
  · exact ⟨l, stat_eq_ok_iff.2 ⟨hdir, hl⟩, mem_namesIn.2 (by rw [hentry]; rfl)⟩

/-! ### Trees that hold the same -/

section Same

variable (hsame : ∀ l, u.entry? l = t.entry? l)

include hsame

theorem resolve_congr (p : Path) : u.resolve p = t.resolve p := by
  have hstep : u.step = t.step := by
    funext l name
    rw [step, step, hsame]
  rw [resolve, resolve, hstep]

theorem stat_congr (p : Path) : u.stat p = t.stat p := by
  simp only [stat, resolve_congr hsame, hsame]

theorem look_congr (p : Path) : u.look p = t.look p := by
  rw [look, look, stat_congr hsame]

theorem read_congr (p : Path) : u.read p = t.read p := by
  rw [read, read, stat_congr hsame]

end Same

/-- What a location holds is the entry that has it, if no location is in use twice. -/
theorem find?_eq_some_iff {entries : List (Location × Entry)} (hnodup : (entries.map (·.1)).Nodup)
    {e : Entry} : (entries.find? fun x => x.1 == l).map (·.2) = some e ↔ (l, e) ∈ entries := by
  induction entries with
  | nil => simp
  | cons head rest ih =>
    obtain ⟨hnew, hrest⟩ := List.nodup_cons.1 hnodup
    obtain ⟨k, old⟩ := head
    by_cases hk : k = l
    · have hnone : (l, e) ∉ rest := by
        rw [← hk]
        exact fun hmem => hnew (List.mem_map.2 ⟨_, hmem, rfl⟩)
      rw [List.find?_cons_of_pos (by simpa using hk), List.mem_cons, or_iff_left hnone, hk]
      simp [eq_comm]
    · rw [List.find?_cons_of_neg (by simpa using hk), List.mem_cons, ih hrest]
      simp [Ne.symm hk]

/-- **Entries in another order hold the same**, if no location is in use twice. -/
theorem entry?_of_perm (hperm : u.entries.Perm t.entries) (hnodup : (t.entries.map (·.1)).Nodup)
    (l : Location) : u.entry? l = t.entry? l := by
  have hnodup' : (u.entries.map (·.1)).Nodup := (hperm.map _).nodup_iff.2 hnodup
  rw [ entry?, entry?]
  split
  · rfl
  · refine Option.ext fun e => ?_
    rw [find?_eq_some_iff hnodup', find?_eq_some_iff hnodup, hperm.mem_iff]

/-! ### A new file -/

/-- **A tree that has got one more file**, at a location that held nothing. -/
structure GainsFile (t u : FileTree) (l : Location) : Prop where
  nothing : t.entry? l = none
  file : u.isFile l = true
  elsewhere : ∀ k, k ≠ l → u.entry? k = t.entry? k

/-- **A file that is written where nothing was** changes nothing else. -/
theorem GainsFile.of_write {octets : List UInt8} (hnew : t.pathExists p = false)
    (h : t.write p octets = .ok u) : ∃ l, t.resolve p = .ok l ∧ GainsFile t u l := by
  obtain ⟨l, executable, hresolve, hl, rfl⟩ := exists_put_of_write h
  have hself := entry?_put_self (names_ne_nil_of_ne hl) t (.file octets executable)
  refine ⟨l, hresolve, ?_, isFile_iff.2 ⟨_, _, hself⟩, fun k hk => entry?_put_of_ne hk t _⟩
  cases hentry : t.entry? l with
  | none => rfl
  | some e =>
    rw [pathExists, stat_eq_ok_iff.2 ⟨hresolve, hentry⟩] at hnew
    cases hnew

namespace GainsFile

variable (h : GainsFile t u l)

include h

/-- A new file makes no directory. -/
theorem directory_iff : u.entry? k = some .directory ↔ t.entry? k = some .directory := by
  by_cases hk : k = l
  · obtain ⟨content, executable, hfile⟩ := isFile_iff.1 h.file
    rw [hk, hfile, h.nothing]
    simp
  · rw [h.elsewhere k hk]

/-- A path still leads where it led. -/
theorem resolve_iff : u.resolve p = .ok k ↔ t.resolve p = .ok k :=
  ⟨resolve_mono fun _ => h.directory_iff.1, resolve_mono fun _ => h.directory_iff.2⟩

theorem stat_directory_iff : u.stat p = .ok (k, .directory) ↔ t.stat p = .ok (k, .directory) := by
  rw [stat_eq_ok_iff, stat_eq_ok_iff, h.resolve_iff, h.directory_iff]

/-- The same paths can be looked up. -/
theorem exists_look_iff : (∃ found, u.look p = .ok found) ↔ ∃ found, t.look p = .ok found := by
  rw [FileTree.exists_look_iff, FileTree.exists_look_iff]
  exact not_congr ⟨resolve_nameTooLong fun _ => h.directory_iff.1,
    resolve_nameTooLong fun _ => h.directory_iff.2⟩

/-- What is read at any other path is what was read there. -/
theorem read_iff (hother : t.resolve p ≠ .ok l) {octets : List UInt8} :
    u.read p = .ok octets ↔ t.read p = .ok octets := by
  simp only [read_eq_ok_iff, h.resolve_iff]
  refine exists_congr fun k => exists_congr fun executable => and_congr_right fun hresolve => ?_
  rw [h.elsewhere k (by rintro rfl; exact hother hresolve)]

end GainsFile

end FileTree

end LintReport
