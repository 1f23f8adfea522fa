import LintReport.Proofs.FileTree.Merging

/-!
# Directories That Have Been Copied

A copy that ends without a problem has put every file where it would put it again. As long as neither
the files that were copied nor what they became are touched, the same copy succeeds a second time and
changes nothing.

## Main definitions

* `FileTree.FileSettled`: whether a file has been copied to where it would be.
* `FileTree.Settled`: whether a directory has been copied to where it would be.
* `FileTree.EntrySettled`: the same of an entry of a directory.

## Main results

* `Settled.run`: **a settled copy is made again without changing anything**.
* `Settled.landed`: every file of a settled copy is where it lands.
* `Settled.later`: a copy stays settled while its files do.
* `copyTree_settled`: **a copy without problems is settled**.
-/

namespace LintReport.FileTree

open Location (Apart)

variable {t u w : FileTree} {area b k l s v place : Location} {source target holder p : Path}
  {e : Entry} {budget : Nat} {names : List String}

/-! ### Files -/

/-- Whether a file has been copied to where it would be copied again. -/
def FileSettled (w : FileTree) (source target : Path) : Prop :=
  ∃ l content executable, w.stat source = .ok (l, .file content executable) ∧
    w.stat (w.landingPath source target) =
      .ok (w.landing (locationOf target), .file content executable) ∧
    l ≠ w.landing (locationOf target)

/-- A file that is there is written again without changing anything. -/
theorem write_of_stat {content : List UInt8} {executable : Bool}
    (h : t.stat p = .ok (l, .file content executable)) : t.write p content = .ok t := by
  obtain ⟨hresolve, hl⟩ := stat_eq_ok_iff.1 h
  rw [write, modify_of_resolve hresolve, hl]
  dsimp only
  rw [put_eq_self (names_ne_nil_of_file hl) hl]

/-- A settled file is copied again without changing anything. -/
theorem FileSettled.run (h : FileSettled w source target) :
    (copyFile source target).run.run w = (.ok (), w) := by
  obtain ⟨l, content, executable, hsource, hlanded, hne⟩ := h
  obtain ⟨hresolve, hentry⟩ := stat_eq_ok_iff.1 hlanded
  rw [copyFile, run_get_bind]
  dsimp only
  rw [← landingPath, hsource]
  dsimp only
  rw [if_neg (by simpa [hlanded, Except.toOption] using Ne.symm hne), write_of_stat hlanded]
  dsimp only
  rw [hresolve]
  dsimp only
  rw [put_eq_self (names_ne_nil_of_file hentry) hentry]
  rfl

/-- A file stays settled as long as it and what is in its place are kept. -/
theorem FileSettled.later (h : FileSettled t source target)
    (hkeeps : ∀ k, t.entry? k = some .directory → u.entry? k = some .directory)
    (hsource : ∀ k, k.isWithin (locationOf source) = true → u.entry? k = t.entry? k)
    (htarget : ∀ k e, k.isWithin (locationOf target) = true → t.entry? k = some e →
      u.entry? k = some e) : FileSettled u source target := by
  obtain ⟨l, content, executable, hfile, hlanded, hne⟩ := h
  obtain ⟨hresolve, hl⟩ := stat_eq_ok_iff.1 hfile
  obtain ⟨hpath, hentry⟩ := stat_eq_ok_iff.1 hlanded
  have hentry := htarget _ _ (t.isWithin_landing (locationOf target)) hentry
  have hlanding : u.landing (locationOf target) = t.landing (locationOf target) :=
    landing_eq hkeeps (ne_directory_of_file hentry)
  have hsame : u.landingPath source target = t.landingPath source target := by
    by_cases hdirectory : t.isDirectory target = true
    · rw [landingPath, landingPath, if_pos hdirectory, if_pos (isDirectory_mono hkeeps hdirectory)]
    · rw [landingPath, if_neg hdirectory] at hpath
      rw [landingPath, landingPath, if_neg hdirectory, if_neg]
      intro hnew
      obtain ⟨m, hm, hmdirectory⟩ := isDirectory_iff.1 hnew
      rw [eq_locationOf hm, ← eq_locationOf (resolve_mono hkeeps hpath)] at hmdirectory
      rw [hmdirectory] at hentry
      cases hentry
  refine ⟨l, content, executable, stat_eq_ok_iff.2 ⟨resolve_mono hkeeps hresolve, ?_⟩, ?_, ?_⟩
  · rw [hsource l (by rw [← eq_locationOf hresolve]; exact Location.isWithin_self l), hl]
  · rw [hsame, hlanding]
    exact stat_eq_ok_iff.2 ⟨resolve_mono hkeeps hpath, hentry⟩
  · rwa [hlanding]

/-- **A file that has been copied is settled.** -/
theorem copyFile_settled {name : String} (hname : name ≠ "..")
    (hrun : (copyFile (source.child name) (target.child name)).run.run t = (.ok (), u)) :
    FileSettled u (source.child name) (target.child name) := by
  obtain ⟨-, _, hfault, -⟩ | ⟨-, l, k, content, executable, hstat, hpath, hfile, hne, hput⟩ :=
    copyFile_cases hrun
  · cases hfault
  obtain ⟨hresolve, hl⟩ := stat_eq_ok_iff.1 hstat
  obtain rfl := eq_landing hname hpath
  generalize target.child name = target at *
  have hkeeps := directory_put hfile (.file content executable)
  have hentry := entry?_put_self (names_ne_nil_of_ne hfile) t (.file content executable)
  rw [← hput] at hkeeps hentry
  have hlanding := landing_eq hkeeps (ne_directory_of_file hentry)
  have hsame : u.landingPath (source.child name) target =
      t.landingPath (source.child name) target := by
    have hiff : u.isDirectory target = true ↔ t.isDirectory target = true := by
      refine ⟨fun h => isDirectory_mono (fun k hk => ?_) h, isDirectory_mono hkeeps⟩
      rw [hput] at hk
      exact directory_of_put_file hk
    simp only [landingPath, hiff]
  refine ⟨l, content, executable, stat_eq_ok_iff.2 ⟨resolve_mono hkeeps hresolve, ?_⟩, ?_, ?_⟩
  · rw [hput, entry?_put_of_ne hne, hl]
  · rw [hsame, hlanding]
    exact stat_eq_ok_iff.2 ⟨resolve_mono hkeeps hpath, hentry⟩
  · rwa [hlanding]

/-! ### Directories -/

/-- Whether a directory has been copied to where it would be copied again, entry by entry. The budget
bounds the depth of the directories as it does for the copy. -/
inductive Settled (w : FileTree) : Nat → Path → Path → Prop
  | directory {budget : Nat} {source target : Path} {s : Location} :
    w.stat source = .ok (s, .directory) → w.isDirectory target = true →
    (∀ name, w.entry? (s.child name) = some .directory →
      Settled w budget (source.child name) (target.child name)) →
    (∀ name content executable, w.entry? (s.child name) = some (.file content executable) →
      FileSettled w (source.child name) (target.child name)) →
    Settled w (budget + 1) source target

namespace Settled

/-- What is settled within some depth is so within any greater one. -/
theorem mono {budget' : Nat} (h : Settled w budget source target) (hle : budget ≤ budget') :
    Settled w budget' source target := by
  induction h generalizing budget' with
  | directory hsource htarget _ hfiles ih =>
    obtain ⟨more, rfl⟩ := Nat.exists_eq_add_of_lt (Nat.lt_of_succ_le hle)
    exact .directory hsource htarget
      (fun name hname => ih name hname (Nat.le_add_right _ more)) hfiles

/-- **A settled copy is made again without changing anything.** -/
theorem run (h : Settled w budget source target) :
    (copyTree budget source target).run.run w = (.ok (), w) := by
  induction h with
  | @directory budget source target s hsource htarget _ hfiles ih =>
    have hmade : ((makeFromTop target.names.length target).adapt CopyFault.file).run.run w =
        (.ok (), w) := by
      rw [run_adapt, makeFromTop_of_isDirectory _ htarget]
      rfl
    have hentries : ∀ x ∈ w.entriesIn s,
        (entryProblems budget source target x).run.run w = (.ok [], w) := by
      intro x hx
      obtain ⟨name, hname, rfl⟩ := List.mem_map.1 hx
      refine problemsOf_of_ok ?_
      rw [copyEntry]
      cases hentry : w.entry? (s.child name) with
      | none =>
        rw [mem_namesIn, hentry] at hname
        cases hname
      | some e =>
        cases e with
        | directory => exact ih name hentry
        | file content executable => exact (hfiles name content executable hentry).run
    rw [copyTree_run hsource, run_bind_ok hmade, run_bind_ok (run_mapM_of_forall hentries),
      if_neg (by simp)]
    rfl

/-- **Every file of a settled copy is where it lands.** -/
theorem landed (h : Settled w budget source target) (hw : w.IsTree)
    (hs : w.stat source = .ok (s, .directory)) {rel : List String} {content : List UInt8}
    {executable : Bool} (hfile : w.entry? (s.descend rel) = some (.file content executable)) :
    w.entry? (w.landing ((locationOf target).descend rel)) = some (.file content executable) := by
  induction h generalizing s rel with
  | @directory budget source target l hsource _ hdirectories hfiles ih =>
    obtain ⟨rfl, -⟩ := Prod.mk.inj (Except.ok.inj (hs.symm.trans hsource))
    cases rel with
    | nil =>
      rw [Location.descend_nil, (stat_eq_ok_iff.1 hs).2] at hfile
      cases hfile
    | cons name rest =>
      have hname : name ≠ ".." := by
        rintro rfl
        exact hw.notUp _ (by rw [hfile]; rfl) (by simp [Location.descend])
      rw [Location.descend_cons] at hfile ⊢
      rw [← locationOf_child hname]
      by_cases hrest : rest = []
      · rw [hrest, Location.descend_nil] at hfile ⊢
        obtain ⟨l, content', executable', hstat, hlanded, -⟩ := hfiles name _ _ hfile
        obtain ⟨hresolve, hl⟩ := stat_eq_ok_iff.1 hstat
        rw [eq_locationOf hresolve, locationOf_child hname,
          ← eq_locationOf (stat_eq_ok_iff.1 hs).1, hfile] at hl
        rw [(stat_eq_ok_iff.1 hlanded).2, hl]
      · have hdirectory : w.entry? (s.child name) = some .directory := by
          by_contra hnot
          rw [hw.entry?_descend hnot hrest] at hfile
          cases hfile
        cases hdirectories name hdirectory with
        | @directory _ _ _ l hchild =>
          have hl := eq_locationOf (stat_eq_ok_iff.1 hchild).1
          rw [locationOf_child hname, ← eq_locationOf (stat_eq_ok_iff.1 hs).1] at hl
          rw [hl] at hchild
          exact ih name hdirectory hchild hfile

/-- **A copy stays settled** while what it was made from does not change and what it has become is
kept. -/
theorem later (h : Settled t budget source target) (ht : t.IsTree)
    (hkeeps : ∀ k, t.entry? k = some .directory → u.entry? k = some .directory)
    (hsource : ∀ k, k.isWithin (locationOf source) = true → u.entry? k = t.entry? k)
    (htarget : ∀ k e, k.isWithin (locationOf target) = true → t.entry? k = some e →
      u.entry? k = some e) : Settled u budget source target := by
  induction h with
  | @directory budget source target s hstat hdirectory _ hfiles ih =>
    have hs := eq_locationOf (stat_eq_ok_iff.1 hstat).1
    have hchild (name : String) : u.entry? (s.child name) = t.entry? (s.child name) :=
      hsource _ (by rw [hs]; exact Location.isWithin_descend _ [name])
    have hbelow {p : Path} {name : String} (hname : name ≠ "..") {k : Location}
        (hk : k.isWithin (locationOf (p.child name)) = true) : k.isWithin (locationOf p) = true := by
      rw [locationOf_child hname] at hk
      exact Location.isWithin_trans hk (Location.isWithin_descend _ [name])
    have hup {name : String} {e : Entry} (he : t.entry? (s.child name) = some e) : name ≠ ".." := by
      rintro rfl
      exact ht.notUp _ (by rw [he]; rfl) (by simp [Location.child])
    refine .directory (s := s) (stat_eq_ok_iff.2 ?_) (isDirectory_mono hkeeps hdirectory)
      (fun name hname => ?_) (fun name content executable hname => ?_)
    · obtain ⟨hresolve, hentry⟩ := stat_eq_ok_iff.1 hstat
      exact ⟨resolve_mono hkeeps hresolve, hkeeps s hentry⟩
    · rw [hchild] at hname
      exact ih name hname (fun k hk => hsource k (hbelow (hup hname) hk))
        fun k e hk => htarget k e (hbelow (hup hname) hk)
    · rw [hchild] at hname
      exact (hfiles name content executable hname).later hkeeps
        (fun k hk => hsource k (hbelow (hup hname) hk))
        fun k e hk => htarget k e (hbelow (hup hname) hk)

end Settled

/-! ### Copies without problems -/

/-- Whether an entry of a directory has been copied to where it would be copied again. -/
def EntrySettled (w : FileTree) (budget : Nat) (source target : Path)
    (entry : String × Option Entry) : Prop :=
  match entry.2 with
  | some .directory => Settled w budget (source.child entry.1) (target.child entry.1)
  | _ => FileSettled w (source.child entry.1) (target.child entry.1)

theorem EntrySettled.later {x : String × Option Entry} (h : EntrySettled t budget source target x)
    (ht : t.IsTree)
    (hkeeps : ∀ k, t.entry? k = some .directory → u.entry? k = some .directory)
    (hsource : ∀ k, k.isWithin (locationOf (source.child x.1)) = true → u.entry? k = t.entry? k)
    (htarget : ∀ k e, k.isWithin (locationOf (target.child x.1)) = true → t.entry? k = some e →
      u.entry? k = some e) : EntrySettled u budget source target x := by
  rw [EntrySettled] at h ⊢
  split at h
  · exact Settled.later h ht hkeeps hsource htarget
  · exact FileSettled.later h hkeeps hsource htarget

/-- An entry stays settled while other entries are merged, since no copy touches another one. -/
theorem EntrySettled.later_of_merges {x : String × Option Entry} {xs : List (String × Option Entry)}
    (h : EntrySettled t budget source target x) (ht : t.IsTree)
    (htarget : t.stat target = .ok (v, .directory)) (hapart : Apart (locationOf source) area)
    (hv : v.isWithin area = true) (hup : x.1 ≠ "..") (hne : ∀ y ∈ xs, x.1 ≠ y.1)
    (hmerges : Merges area
      (fun k place => ∃ y ∈ xs, Below ((locationOf source).child y.1) (v.child y.1) k place) t u) :
    EntrySettled u budget source target x := by
  have hseparates : Separates area fun k place => ∃ y ∈ xs,
      Below ((locationOf source).child y.1) (v.child y.1) k place := by
    rintro k place ⟨y, -, hbelow⟩
    exact Below.separates hapart hv k place hbelow.of_child
  refine h.later ht (fun _ => hmerges.keeps_directory)
    (fun k hk => hmerges.entry?_outside hseparates ?_) (fun k e hk he => ?_)
  · rw [locationOf_child hup] at hk
    exact hapart.not_isWithin
      (Location.isWithin_trans hk (Location.isWithin_descend (locationOf source) [x.1]))
  · rw [locationOf_child hup, ← eq_locationOf (stat_eq_ok_iff.1 htarget).1] at hk
    refine hmerges.keeps_of_places hseparates (fun l place hP => ?_) he
    obtain ⟨y, hy, rel, -, rfl⟩ := hP
    exact Location.not_isWithin_below ((Location.apart_child v (hne y hy)).not_isWithin hk) rel

/-- An entry that has been copied without a problem is settled, if that holds for directories. -/
theorem copyEntry_settled_of {x : String × Option Entry} (hname : x.1 ≠ "..")
    (hdirectory : (copyTree budget (source.child x.1) (target.child x.1)).run.run t = (.ok (), u) →
      Settled u budget (source.child x.1) (target.child x.1))
    (hrun : (copyEntry budget source target x).run.run t = (.ok (), u)) :
    EntrySettled u budget source target x := by
  obtain ⟨name, _ | _ | _⟩ := x
  · exact copyFile_settled hname hrun
  · exact hdirectory hrun
  · exact copyFile_settled hname hrun

/-- A directory is settled when its entries are. -/
theorem Settled.of_entries (hsource : w.stat source = .ok (s, .directory))
    (htarget : w.isDirectory target = true)
    (hentries : ∀ name e, w.entry? (s.child name) = some e →
      EntrySettled w budget source target (name, some e)) :
    Settled w (budget + 1) source target :=
  .directory hsource htarget (fun name hname => hentries name _ hname)
    fun name _ _ hname => hentries name _ hname

/-- Entries that are copied one after the other without problems are all settled in the end, since no
copy touches another one. -/
theorem mapM_settled {xs : List (String × Option Entry)} {problems : List (List CopyProblem)}
    (hapart : Apart (locationOf source) area) (hv : v.isWithin area = true)
    (hnodup : (xs.map (·.1)).Nodup) (hup : ∀ x ∈ xs, x.1 ≠ "..")
    (hcopy : ∀ x ∈ xs, ∀ t u : FileTree, t.IsTree → t.stat target = .ok (v, .directory) →
      (copyEntry budget source target x).run.run t = (.ok (), u) →
        EntrySettled u budget source target x)
    (ht : t.IsTree) (htarget : t.stat target = .ok (v, .directory))
    (hnone : (problems.any (!·.isEmpty)) = false)
    (hrun : (xs.mapM (entryProblems budget source target)).run.run t = (.ok problems, u)) :
    ∀ x ∈ xs, EntrySettled u budget source target x := by
  induction xs generalizing t problems with
  | nil => nofun
  | cons x xs ih =>
    obtain ⟨found, rest, m, hfirst, hothers, rfl⟩ := exists_of_run_mapM_cons_ok hrun
    rw [List.any_cons, Bool.or_eq_false_iff, Bool.not_eq_false', List.isEmpty_iff] at hnone
    rw [List.map_cons, List.nodup_cons] at hnodup
    rw [List.forall_mem_cons] at hup hcopy
    obtain ⟨rfl, hnone⟩ := hnone
    have hcopied := run_of_problemsOf_nil (fun _ _ => copyEntry_fault) hfirst
    have hstep := copyEntry_merges budget source hup.1 ht htarget hv
    rw [hcopied] at hstep
    have hm := hstep.isTree ht
    have hmtarget := hstep.stat_directory htarget
    have hlater := mapM_merges budget source xs hm hmtarget
      fun x hx u hu hutarget => copyEntry_merges budget source (hup.2 x hx) hu hutarget hv
    rw [hothers] at hlater
    have hne (y : String × Option Entry) (hy : y ∈ xs) : x.1 ≠ y.1 := by
      intro heq
      rw [heq] at hnodup
      exact hnodup.1 (List.mem_map_of_mem hy)
    rw [List.forall_mem_cons]
    exact ⟨(hcopy.1 t m ht htarget hcopied).later_of_merges hm hmtarget hapart hv hup.1 hne hlater,
      ih hnodup.2 hup.2 hcopy.2 hm hmtarget hnone hothers⟩

/-- **A copy without problems is settled.** -/
theorem copyTree_settled (ht : t.IsTree) (hapart : Apart (locationOf source) area)
    (hholder : t.stat holder = .ok (b, .directory)) (hb : b.isWithin area = true)
    (hdown : ".." ∉ names)
    (hrun : (copyTree budget source (holder.descend names)).run.run t = (.ok (), u)) :
    Settled u budget source (holder.descend names) := by
  induction budget generalizing t u source holder b names with
  | zero => cases hrun
  | succ budget ih =>
    have hmerges := copyTree_merges (budget + 1) source ht hholder hb hdown
    rw [hrun] at hmerges
    by_cases hstat : ∃ s, t.stat source = .ok (s, .directory)
    · obtain ⟨s, hstat⟩ := hstat
      have hs := eq_locationOf (stat_eq_ok_iff.1 hstat).1
      rw [copyTree_run hstat] at hrun
      obtain ⟨_, m, hmade, hrun⟩ := exists_of_run_bind_ok hrun
      obtain ⟨hlays, htarget⟩ := lays_of_makeFromTop ht hholder hdown hmade
      obtain ⟨problems, u', hcopied, hrun⟩ := exists_of_run_bind_ok hrun
      split at hrun
      · cases hrun
      next hnone =>
      obtain rfl : u' = u := congrArg Prod.snd hrun
      have hv : (b.descend names).isWithin area = true :=
        Location.isWithin_trans (Location.isWithin_descend b names) hb
      have hup : ∀ x ∈ t.entriesIn s, x.1 ≠ ".." := by
        intro x hx
        obtain ⟨name, hname, rfl⟩ := List.mem_map.1 hx
        exact ht.ne_of_mem_namesIn hname
      have hmerged := mapM_merges budget source _ hlays.tree htarget
        fun x hx u hu hutarget => copyEntry_merges budget source (hup x hx) hu hutarget hv
      rw [hcopied] at hmerged
      have hentries := mapM_settled hapart hv
        (by simpa [entriesIn, Function.comp_def] using ht.nodup_namesIn s) hup
        (fun x hx t u ht htarget hcopy => ?_) hlays.tree htarget (Bool.eq_false_iff.2 hnone) hcopied
      · refine .of_entries (hmerges.stat_directory hstat)
          (isDirectory_iff.2 ⟨_, stat_eq_ok_iff.1 (hmerged.stat_directory htarget)⟩)
          fun name e hname => ?_
        have hsame : u'.entry? (s.child name) = t.entry? (s.child name) := by
          refine hmerges.entry?_outside (Below.separates hapart hv) ?_
          rw [hs]
          exact (hapart.descend_left [name]).left
        rw [hsame] at hname
        rw [← hname]
        exact hentries _ (List.mem_map_of_mem (mem_namesIn.2 (by rw [hname]; rfl)))
      · have hname := hup x hx
        have hchild : Apart (locationOf (source.child x.1)) area := by
          rw [locationOf_child hname]
          exact hapart.descend_left [x.1]
        exact copyEntry_settled_of hname
          (ih ht hchild htarget hv (show ".." ∉ [x.1] by simpa using Ne.symm hname)) hcopy
    · obtain ⟨found, hfailed⟩ := @copyTree_run_of_stat t source (holder.descend names) budget
        (not_exists.1 hstat)
      rw [hfailed] at hrun
      cases hrun

/-- A directory that has been copied into another one without problems is settled. -/
theorem copyDirectory_settled (ht : t.IsTree) (hapart : Apart (locationOf source) area)
    (hholder : t.stat holder = .ok (b, .directory)) (hb : b.isWithin area = true)
    (hdown : ".." ∉ names)
    (hrun : (copyDirectory source holder names).run.run t = (.ok (), u)) :
    Settled u (u.entries.length + 1) source (holder.descend names) := by
  have hmerges := copyDirectory_merges source ht hholder hb hdown
  rw [hrun] at hmerges
  obtain hcopied | ⟨⟨_, hfailed⟩, -⟩ := copyDirectory_cases t source holder names
  · rw [hcopied] at hrun
    exact (copyTree_settled ht hapart hholder hb hdown hrun).mono
      (Nat.succ_le_succ hmerges.length_le)
  · rw [hfailed] at hrun
    cases hrun

/-- A settled directory is copied into another one again without changing anything. -/
theorem Settled.run_copyDirectory
    (h : Settled w (w.entries.length + 1) source (holder.descend names))
    (hapart : Apart (locationOf source) ((locationOf holder).descend names)) :
    (copyDirectory source holder names).run.run w = (.ok (), w) := by
  obtain hcopied | ⟨-, hinside⟩ := copyDirectory_cases w source holder names
  · rw [hcopied, h.run]
  · rw [hapart.right] at hinside
    cases hinside

end LintReport.FileTree
