import LintReport.Proofs.FileTree.Copying

/-!
# Merging Directories

A directory is copied into one that may hold something already. Whatever becomes of the copy, each of
its steps makes a directory where nothing is, or puts a file that is copied where it lands: at the
place that corresponds to it, or, if a directory stands there, in that one under its own name. As
long as nothing is copied to where something is copied from, this says for every location what it
holds in the end.

## Main definitions

* `FileTree.landing`: where a file lands that is copied to a place.
* `FileTree.Merges`: the trees that such steps lead to.
* `FileTree.Landed`: whether a location holds a file that has landed there.
* `FileTree.Below`: what corresponds to what when one directory is copied to another one.

## Main results

* `copyTree_merges`, `copyDirectory_merges`: **every copy of a directory is a merge**, with or
  without problems.
* `Merges.entry?_outside`: nothing changes outside the area of the copies.
* `Merges.of_ne`: **what changes is a new directory or a file that has landed**.
* `Merges.isDirectory_of_apart`: no directory appears apart from that area.
-/

namespace LintReport.FileTree

open Location (Apart)

variable {t u w : FileTree} {area b k l s v place : Location} {source target holder p : Path}
  {P Q : Location → Location → Prop} {e : Entry} {budget : Nat} {names : List String}

/-! ### Where a file lands -/

/-- Where a file lands that is copied to a place: there, or, if a directory stands there, in it under
the same name. -/
def landing (t : FileTree) (place : Location) : Location :=
  if t.entry? place = some .directory then place.child (place.names.getLast?.getD "") else place

theorem isWithin_landing (t : FileTree) (place : Location) :
    (t.landing place).isWithin place = true := by
  rw [landing]
  split
  · exact Location.isWithin_descend place _
  · exact Location.isWithin_self place

/-- Where a file has landed it would land again. -/
theorem landing_eq (hkeeps : ∀ k, t.entry? k = some .directory → u.entry? k = some .directory)
    (hfile : u.entry? (t.landing place) ≠ some .directory) : u.landing place = t.landing place := by
  by_cases hplace : t.entry? place = some .directory
  · rw [landing, landing, if_pos hplace, if_pos (hkeeps place hplace)]
  · rw [landing, if_neg hplace] at hfile
    rw [landing, landing, if_neg hplace, if_neg hfile]

/-- The path that a file is copied to leads to where it lands. -/
theorem eq_landing {name : String} (hname : name ≠ "..")
    (hresolve : t.resolve (t.landingPath (source.child name) (target.child name)) = .ok k) :
    k = t.landing (locationOf (target.child name)) := by
  have hk := eq_locationOf hresolve
  rw [landingPath] at hk hresolve
  by_cases hdirectory : t.isDirectory (target.child name) = true
  · obtain ⟨l, hl, hentry⟩ := isDirectory_iff.1 hdirectory
    rw [eq_locationOf hl] at hentry
    have hsource : (source.child name).name = name := by simp [Path.name, Path.child]
    rw [if_pos hdirectory, hsource, locationOf_child hname] at hk
    rw [landing, if_pos hentry, hk, locationOf_child hname]
    simp [Location.child]
  · rw [if_neg hdirectory] at hk hresolve
    have hentry : t.entry? (locationOf (target.child name)) ≠ some .directory := by
      rw [← hk]
      exact fun h => hdirectory (isDirectory_iff.2 ⟨k, hresolve, h⟩)
    rw [landing, if_neg hentry, hk]

/-! ### Merges -/

/-- The trees that copies lead to. Each step makes a directory in an area where nothing is, or copies
a file to where it lands by a pair of what is copied and the place that corresponds to it. -/
inductive Merges (area : Location) (P : Location → Location → Prop) : FileTree → FileTree → Prop
  | none (t : FileTree) : Merges area P t t
  | directory {t u : FileTree} {p : Path} {l : Location} : Merges area P t u →
    u.resolve p = .ok l → u.entry? l = none → l.isWithin area = true →
    Merges area P t (u.put l .directory)
  | file {t u : FileTree} {p : Path} {k place : Location} {content : List UInt8}
    {executable : Bool} : Merges area P t u → P k place →
    u.entry? k = some (.file content executable) → u.resolve p = .ok (u.landing place) →
    u.entry? (u.landing place) ≠ some .directory →
    Merges area P t (u.put (u.landing place) (.file content executable))

/-- Whether nothing is copied from an area, and everything is copied to places in it. -/
def Separates (area : Location) (P : Location → Location → Prop) : Prop :=
  ∀ k place, P k place → k.isWithin area = false ∧ place.isWithin area = true

/-- Whether a location holds a file that has landed there, by a pair of what is copied and the place
that corresponds to it. -/
def Landed (P : Location → Location → Prop) (u : FileTree) (k : Location) : Prop :=
  ∃ l place content executable, P l place ∧ u.entry? l = some (.file content executable) ∧
    u.entry? k = some (.file content executable) ∧ k = u.landing place

/-- What has landed stays so if neither that location nor what is copied changes. -/
theorem Landed.later (h : Landed P t k)
    (hkeeps : ∀ k, t.entry? k = some .directory → u.entry? k = some .directory)
    (hk : u.entry? k = t.entry? k)
    (hsources : ∀ l place e, P l place → t.entry? l = some e → u.entry? l = some e) :
    Landed P u k := by
  obtain ⟨l, place, content, executable, hP, hl, hfile, rfl⟩ := h
  refine ⟨l, place, content, executable, hP, hsources l place _ hP hl, hk.trans hfile, ?_⟩
  exact (landing_eq hkeeps (ne_directory_of_file (hk.trans hfile))).symm

/-- What has landed stays so when something is put elsewhere, where nothing is copied from. -/
theorem Landed.put (h : Landed P u k) (hl : u.entry? l ≠ some .directory) (hk : k ≠ l)
    (hsources : ∀ l' place, P l' place → u.entry? l' ≠ none → l' ≠ l) :
    Landed P (u.put l e) k := by
  refine h.later (directory_put hl e) (entry?_put_of_ne hk u e) fun l' place e' hP he => ?_
  rw [ entry?_put_of_ne (hsources l' place hP (by rw [he]; nofun)) u e, he]

theorem Landed.mono (h : Landed P u k) (hPQ : ∀ k place, P k place → Q k place) : Landed Q u k := by
  obtain ⟨l, place, content, executable, hP, hlanded⟩ := h
  exact ⟨l, place, content, executable, hPQ l place hP, hlanded⟩

/-- A file that has landed is within a place of the copies. -/
theorem Landed.exists_place (h : Landed P u k) : ∃ l place, P l place ∧ k.isWithin place = true := by
  obtain ⟨l, place, _, _, hP, -, -, rfl⟩ := h
  exact ⟨l, place, hP, u.isWithin_landing place⟩

namespace Merges

theorem trans (h : Merges area P t u) (h' : Merges area P u w) : Merges area P t w := by
  induction h' with
  | none => exact h
  | directory _ hresolve hnone harea ih => exact ih.directory hresolve hnone harea
  | file _ hP hk hresolve hfile ih => exact ih.file hP hk hresolve hfile

theorem mono (h : Merges area P t u) (hPQ : ∀ k place, P k place → Q k place) :
    Merges area Q t u := by
  induction h with
  | none => exact .none t
  | directory _ hresolve hnone harea ih => exact ih.directory hresolve hnone harea
  | file _ hP hk hresolve hfile ih => exact ih.file (hPQ _ _ hP) hk hresolve hfile

/-- Directories on the way down from a directory in the area are made in the area. -/
theorem of_makes (h : Makes (holder.descend names) t u)
    (hholder : t.stat holder = .ok (b, .directory)) (hb : b.isWithin area = true)
    (hdown : ".." ∉ names) : Merges area P t u := by
  induction h with
  | none => exact .none t
  | @put u q l hmakes hstart hbegins hresolve hnone ih =>
    refine ih.directory hresolve hnone ?_
    have hne : FileTree.entry? (u.put l .directory) l ≠ t.entry? l := by
      rw [ entry?_put_self (names_ne_nil_of_ne (by rw [hnone]; nofun))]
      intro heq
      rw [hmakes.keeps heq.symm] at hnone
      cases hnone
    obtain ⟨i, -, rfl⟩ :=
      (hmakes.put hstart hbegins hresolve hnone).exists_of_ne hholder hdown hne
    exact Location.isWithin_trans (Location.isWithin_descend b _) hb

theorem isTree (h : Merges area P t u) (ht : t.IsTree) : u.IsTree := by
  induction h with
  | none => exact ht
  | directory _ hresolve hnone _ ih =>
    exact ih.put_of_resolve hresolve (by rw [hnone]; nofun) _
  | file _ _ _ hresolve hfile ih => exact ih.put_of_resolve hresolve hfile _

/-- Every directory stays one. -/
theorem keeps_directory (h : Merges area P t u) (hk : t.entry? k = some .directory) :
    u.entry? k = some .directory := by
  induction h with
  | none => exact hk
  | directory _ _ hnone _ ih => exact directory_put (by rw [hnone]; nofun) _ k ih
  | file _ _ _ _ hfile ih => exact directory_put hfile _ k ih

theorem stat_directory (h : Merges area P t u) (hp : t.stat p = .ok (l, .directory)) :
    u.stat p = .ok (l, .directory) := by
  rw [stat_eq_ok_iff] at hp ⊢
  exact ⟨resolve_mono (fun _ => h.keeps_directory) hp.1, h.keeps_directory hp.2⟩

theorem isDirectory (h : Merges area P t u) (hp : t.isDirectory p = true) :
    u.isDirectory p = true :=
  isDirectory_mono (fun _ => h.keeps_directory) hp

/-- Nothing is removed. -/
theorem length_le (h : Merges area P t u) : t.entries.length ≤ u.entries.length := by
  induction h with
  | none => exact Nat.le_refl _
  | directory _ _ _ _ ih => exact ih.trans (length_le_put _ _ _)
  | file _ _ _ _ _ ih => exact ih.trans (length_le_put _ _ _)

/-- **Nothing changes outside the area of the copies.** -/
theorem entry?_outside (h : Merges area P t u) (hseparates : Separates area P)
    (hk : k.isWithin area = false) : u.entry? k = t.entry? k := by
  have hne {l : Location} (hl : l.isWithin area = true) : k ≠ l := by
    rintro rfl
    rw [hk] at hl
    cases hl
  induction h with
  | none => rfl
  | directory _ _ _ harea ih => rw [ entry?_put_of_ne (hne harea), ih]
  | @file u _ k' place _ _ _ hP _ _ _ ih =>
    have hplace := (hseparates k' place hP).2
    rw [ entry?_put_of_ne (hne (Location.isWithin_trans (u.isWithin_landing place) hplace)), ih]

/-- **What changes is a new directory or a file that has landed.** -/
theorem of_ne (h : Merges area P t u) (hseparates : Separates area P)
    (hne : u.entry? k ≠ t.entry? k) :
    t.entry? k = Option.none ∧ u.entry? k = some .directory ∨ Landed P u k := by
  induction h with
  | none => exact absurd rfl hne
  | @directory u _ new _ _ hnone _ ih =>
    by_cases hk : k = new
    · left
      rw [hk]
      refine ⟨?_, entry?_put_self (names_ne_nil_of_ne (by rw [hnone]; nofun)) u _⟩
      by_contra hsome
      rw [← hk] at hsome hnone
      obtain ⟨hold, -⟩ | ⟨_, _, _, _, -, -, hfile, -⟩ := ih (by rw [hnone]; exact Ne.symm hsome)
      · exact hsome hold
      · rw [hnone] at hfile
        cases hfile
    · rw [ entry?_put_of_ne hk u .directory] at hne ⊢
      refine (ih hne).imp_right fun hlanded => hlanded.put (by rw [hnone]; nofun) hk ?_
      rintro l - - hl rfl
      exact hl hnone
  | @file u _ k' place content executable _ hP hk' _ hfile ih =>
    have hsources (l place' : Location) (hP' : P l place') : l ≠ u.landing place := by
      rintro rfl
      have hwithin :=
        Location.isWithin_trans (u.isWithin_landing place) (hseparates k' place hP).2
      rw [(hseparates _ place' hP').1] at hwithin
      cases hwithin
    by_cases hk : k = u.landing place
    · right
      have hput := entry?_put_self (names_ne_nil_of_ne hfile) u (.file content executable)
      rw [hk]
      refine ⟨k', place, content, executable, hP, ?_, hput, ?_⟩
      · rw [ entry?_put_of_ne (hsources k' place hP) u, hk']
      · exact (landing_eq (directory_put hfile _) (ne_directory_of_file hput)).symm
    · rw [ entry?_put_of_ne hk u (.file content executable)] at hne ⊢
      exact (ih hne).imp_right fun hlanded =>
        hlanded.put hfile hk fun l place hP _ => hsources l place hP

/-- What is not where anything is copied to is kept. -/
theorem keeps_of_places (h : Merges area P t u) (hseparates : Separates area P)
    (hplaces : ∀ l place, P l place → k.isWithin place = false) (hk : t.entry? k = some e) :
    u.entry? k = some e := by
  by_contra hne
  rw [← hk] at hne
  obtain ⟨hnone, -⟩ | hlanded := h.of_ne hseparates hne
  · rw [hnone] at hk
    cases hk
  · obtain ⟨l, place, hP, hwithin⟩ := hlanded.exists_place
    rw [hplaces l place hP] at hwithin
    cases hwithin

/-- **No directory appears apart from the area**: what is one at the end of a path was one before, if
the path began with what was there. -/
theorem isDirectory_of_apart (h : Merges area P t u) (hseparates : Separates area P)
    (hp : t.resolve p = .ok b) (hdown : ".." ∉ names)
    (hapart : Apart (locationOf (p.descend names)) area)
    (hdirectory : u.isDirectory (p.descend names) = true) :
    t.isDirectory (p.descend names) = true := by
  obtain ⟨l, hresolve, hl⟩ := isDirectory_iff.1 hdirectory
  rw [← eq_locationOf hresolve] at hapart
  obtain ⟨husable, m, hm, hwalk⟩ := resolve_descend_iff.1 hresolve
  obtain rfl : b = m :=
    Except.ok.inj ((resolve_mono (fun _ => h.keeps_directory) hp).symm.trans hm)
  obtain ⟨rfl, hsizes, hopen⟩ := (walk_eq_ok_iff hdown).1 hwalk
  have hsame (i : Nat) : u.entry? (b.descend (names.take i)) = t.entry? (b.descend (names.take i)) :=
    h.entry?_outside hseparates (Location.not_isWithin_of_isWithin hapart.left
      (Location.descend_isWithin_iff.2 (List.take_prefix i names)))
  refine isDirectory_iff.2 ⟨b.descend names, resolve_descend_iff.2 ⟨husable, b, hp, ?_⟩, ?_⟩
  · exact (walk_eq_ok_iff hdown).2 ⟨rfl, hsizes, fun i hi => (hsame i).symm.trans (hopen i hi)⟩
  · rw [← h.entry?_outside hseparates hapart.left, hl]

end Merges

/-! ### Copies -/

/-- What corresponds to what when what is below one location is copied to below another one. -/
def Below (s v k place : Location) : Prop := ∃ rel, k = s.descend rel ∧ place = v.descend rel

theorem Below.of_child {name : String} (h : Below (s.child name) (v.child name) k place) :
    Below s v k place := by
  obtain ⟨rel, rfl, rfl⟩ := h
  exact ⟨name :: rel, (s.descend_cons name rel).symm, (v.descend_cons name rel).symm⟩

theorem Below.self (s v : Location) : Below s v s v :=
  ⟨[], s.descend_nil.symm, v.descend_nil.symm⟩

/-- A copy to a location in the area from one that is apart from it. -/
theorem Below.separates (hs : Apart s area) (hv : v.isWithin area = true) :
    Separates area (Below s v) := by
  rintro k place ⟨rel, rfl, rfl⟩
  exact ⟨(hs.descend_left rel).left, Location.isWithin_trans (Location.isWithin_descend v rel) hv⟩

/-- A file is copied to where it lands. -/
theorem copyFile_merges {name : String} (hname : name ≠ "..")
    (hP : P (locationOf (source.child name)) (locationOf (target.child name))) :
    Merges area P t ((copyFile (source.child name) (target.child name)).run.run t).2 := by
  obtain ⟨hsame, -⟩ | ⟨-, l, k, content, executable, hstat, hresolve, hfile, -, hput⟩ :=
    copyFile_cases (Prod.eta ((copyFile (source.child name) (target.child name)).run.run t)).symm
  · rw [hsame]
    exact .none t
  · obtain ⟨hsource, hl⟩ := stat_eq_ok_iff.1 hstat
    obtain rfl := eq_landing hname hresolve
    rw [hput]
    rw [← eq_locationOf hsource] at hP
    exact (Merges.none t).file hP hl hresolve hfile

/-- The problems of a copy are collected without changing anything. -/
theorem problemsOf_snd (copy : Step CopyFault Unit) :
    ((problemsOf source target copy).run.run t).2 = (copy.run.run t).2 := by
  cases hran : copy.run.run t with
  | mk result t' =>
    cases result with
    | ok _ => rw [problemsOf_of_ok hran]
    | error fault => rw [problemsOf_of_error hran]

theorem copyEntry_merges_of {x : String × Option Entry}
    (hcopy : Merges area P t ((copyTree budget (source.child x.1) (target.child x.1)).run.run t).2)
    (hname : x.1 ≠ "..")
    (hP : P (locationOf (source.child x.1)) (locationOf (target.child x.1))) :
    Merges area P t ((copyEntry budget source target x).run.run t).2 := by
  rw [copyEntry]
  split
  · exact hcopy
  · exact copyFile_merges hname hP

/-- Entries of which each is merged are merged together. -/
theorem mapM_merges (budget : Nat) (source : Path) (xs : List (String × Option Entry))
    {P : String × Option Entry → Location → Location → Prop} (ht : t.IsTree)
    (htarget : t.stat target = .ok (v, .directory))
    (hstep : ∀ x ∈ xs, ∀ u : FileTree, u.IsTree → u.stat target = .ok (v, .directory) →
      Merges area (P x) u ((copyEntry budget source target x).run.run u).2) :
    Merges area (fun k place => ∃ x ∈ xs, P x k place) t
      ((xs.mapM (entryProblems budget source target)).run.run t).2 := by
  refine of_run_mapM (fun x hx u hu => hu.trans ?_) (.none t)
  rw [entryProblems, problemsOf_snd]
  exact (hstep x hx u (hu.isTree ht) (hu.stat_directory htarget)).mono
    fun _ _ hP => ⟨x, hx, hP⟩

/-- **Every copy of a directory is a merge**, with or without problems. -/
theorem copyTree_merges (budget : Nat) (source : Path) (ht : t.IsTree)
    (hholder : t.stat holder = .ok (b, .directory)) (hb : b.isWithin area = true)
    (hdown : ".." ∉ names) :
    Merges area (Below (locationOf source) (b.descend names)) t
      ((copyTree budget source (holder.descend names)).run.run t).2 := by
  induction budget generalizing t source holder b names with
  | zero => exact .none t
  | succ budget ih =>
    by_cases hsource : ∃ l, t.stat source = .ok (l, .directory)
    · obtain ⟨l, hl⟩ := hsource
      rw [copyTree_run hl]
      have hattempts := makeFromTop_attempts (holder.descend names).names.length
        (holder.descend names) t
      have hmade : Merges area (Below (locationOf source) (b.descend names)) t
          (((makeFromTop (holder.descend names).names.length (holder.descend names)).adapt
            CopyFault.file).run.run t).2 := .of_makes hattempts.makes hholder hb hdown
      refine of_run_bind hmade fun _ m hran hm => hm.trans ?_
      obtain ⟨hlays, htarget⟩ := lays_of_makeFromTop ht hholder hdown hran
      have hv : (b.descend names).isWithin area = true :=
        Location.isWithin_trans (Location.isWithin_descend b names) hb
      have hcopied : Merges area (fun k place => ∃ x ∈ t.entriesIn l,
          Below (locationOf (source.child x.1)) ((b.descend names).child x.1) k place) m
          (((t.entriesIn l).mapM
            (entryProblems budget source (holder.descend names))).run.run m).2 := by
        refine mapM_merges _ _ _ hlays.tree htarget fun x hx u hu hutarget => ?_
        obtain ⟨name, hname, rfl⟩ := List.mem_map.1 hx
        have hup := ht.ne_of_mem_namesIn hname
        refine copyEntry_merges_of
          (ih (source.child name) hu hutarget hv (by simpa using Ne.symm hup)) hup ?_
        rw [locationOf_child hup (p := holder.descend names),
          ← eq_locationOf (stat_eq_ok_iff.1 hutarget).1]
        exact .self _ _
      refine of_run_bind (hcopied.mono fun k place hP => ?_) fun problems u _ hu => ?_
      · obtain ⟨x, hx, hbelow⟩ := hP
        obtain ⟨name, hname, rfl⟩ := List.mem_map.1 hx
        rw [locationOf_child (ht.ne_of_mem_namesIn hname)] at hbelow
        exact hbelow.of_child
      · split <;> exact hu
    · obtain ⟨_, hfailed⟩ := @copyTree_run_of_stat t source (holder.descend names) budget
        (not_exists.1 hsource)
      rw [hfailed]
      exact .none t

/-- So is every copy of an entry. -/
theorem copyEntry_merges (budget : Nat) (source : Path) {x : String × Option Entry}
    (hname : x.1 ≠ "..") (ht : t.IsTree) (htarget : t.stat target = .ok (v, .directory))
    (hv : v.isWithin area = true) :
    Merges area (Below ((locationOf source).child x.1) (v.child x.1)) t
      ((copyEntry budget source target x).run.run t).2 := by
  have hcopy := copyTree_merges budget (source.child x.1) ht htarget hv
    (show ".." ∉ [x.1] by simpa using Ne.symm hname)
  rw [locationOf_child hname] at hcopy
  refine copyEntry_merges_of hcopy hname ?_
  rw [locationOf_child hname, locationOf_child hname, ← eq_locationOf (stat_eq_ok_iff.1 htarget).1]
  exact .self _ _

/-- A directory is copied into another one unless that lies in it. -/
theorem copyDirectory_cases (t : FileTree) (source holder : Path) (names : List String) :
    (copyDirectory source holder names).run.run t =
        (copyTree (t.entries.length + 1) source (holder.descend names)).run.run t ∨
      (∃ fault, (copyDirectory source holder names).run.run t = (.error (.file fault), t)) ∧
        ((locationOf holder).descend names).isWithin (locationOf source) = true := by
  rw [copyDirectory, run_get_bind]
  cases hs : t.resolve source with
  | error kind => exact .inl rfl
  | ok s =>
    cases hh : t.resolve holder with
    | error kind => exact .inl rfl
    | ok h =>
      dsimp only
      split
      · next hinside =>
        rw [← eq_locationOf hs, ← eq_locationOf hh]
        exact .inr ⟨⟨_, rfl⟩, (Bool.and_eq_true_iff.1 hinside).2⟩
      · exact .inl rfl

/-- **Every copy of a directory into another one is a merge.** -/
theorem copyDirectory_merges (source : Path) (ht : t.IsTree)
    (hholder : t.stat holder = .ok (b, .directory)) (hb : b.isWithin area = true)
    (hdown : ".." ∉ names) :
    Merges area (Below (locationOf source) (b.descend names)) t
      ((copyDirectory source holder names).run.run t).2 := by
  obtain hrun | ⟨⟨_, hrun⟩, -⟩ := copyDirectory_cases t source holder names
  · rw [hrun]
    exact copyTree_merges _ source ht hholder hb hdown
  · rw [hrun]
    exact .none t

end LintReport.FileTree
