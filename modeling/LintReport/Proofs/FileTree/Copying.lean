import LintReport.FileTree.Copy
import LintReport.Proofs.FileTree.Making

/-!
# Copies of Directories

A directory is copied entry by entry, each to a location where nothing is. A copy that ends without
a problem is a graft: what was at and below one location is then also at and below the other one,
and nothing else has changed but the directories on the way there.

## Main definitions

* `FileTree.Grafts`: a tree in which one location holds what another one held.
* `FileTree.landingPath`: where a file is copied to.

## Main results

* `copyFile_cases`: what copying a file can do.
* `copyFile_grafts`: a file that is copied is grafted.
* `copyTree_grafts`: **a directory that is copied is grafted**.
* `copyDirectory_grafts`: so it is below a directory, where the way is laid.
* `Lays.entry?_outside`, `Lays.entry?_beside`, `Lays.entry?_above`: what a graft at the end of a way
  leaves as it was.
-/

namespace LintReport.FileTree

open Location (Apart)

variable {t u : FileTree} {s v b : Location} {source target holder : Path}

/-! ### Grafts -/

/-- A tree in which one location, and everything below it, holds what another one held in a tree
that is otherwise the same. All of it can be reached from the path that leads there. -/
structure Grafts (t u : FileTree) (s v : Location) (target : Path) : Prop where
  tree : u.IsTree
  copied : ∀ rel, u.entry? (v.descend rel) = t.entry? (s.descend rel)
  elsewhere : ∀ k, k.isWithin v = false → u.entry? k = t.entry? k
  usable : ∀ rel, (u.entry? (v.descend rel)).isSome = true → (target.descend rel).IsUsable

namespace Grafts

/-- A graft where nothing was keeps everything. -/
theorem keeps (h : Grafts t u s v target) (ht : t.IsTree) (hnew : t.entry? v = none) {k : Location}
    {e : Entry} (hk : t.entry? k = some e) : u.entry? k = some e := by
  rw [h.elsewhere k (ht.not_isWithin hnew hk), hk]

/-- A new entry is a graft of a location that holds the same, if nothing is below that. -/
theorem of_put {e : Entry} (htree : (t.put v e).IsTree) (ht : t.IsTree)
    (hnew : t.entry? v = none) (hs : t.entry? s = some e)
    (hbelow : ∀ rel, rel ≠ [] → t.entry? (s.descend rel) = none) (htarget : target.IsUsable) :
    Grafts t (t.put v e) s v target := by
  have hbelow' (rel : List String) (hrel : rel ≠ []) :
      FileTree.entry? (t.put v e) (v.descend rel) = none := by
    have hne : v.descend rel ≠ v := by
      intro heq
      rw [← v.descend_nil, Location.descend_descend, Location.descend_inj] at heq
      exact hrel heq
    rw [ entry?_put_of_ne hne, ht.entry?_of_none hnew]
  refine ⟨htree, fun rel => ?_, fun k hk => ?_, fun rel hrel => ?_⟩
  · by_cases hnil : rel = []
    · rw [hnil, Location.descend_nil, Location.descend_nil,
        entry?_put_self (names_ne_nil_of_ne (by rw [hnew]; nofun)), hs]
    · rw [hbelow' rel hnil, hbelow rel hnil]
  · refine entry?_put_of_ne ?_ t e
    rintro rfl
    rw [Location.isWithin_self] at hk
    cases hk
  · by_cases hnil : rel = []
    · rwa [hnil, Path.descend_nil]
    · rw [hbelow' rel hnil] at hrel
      cases hrel

end Grafts

/-! ### Files -/

/-- Where a file is copied to: the path that is given, or, if there is a directory, the name of the
file in it. -/
def landingPath (t : FileTree) (source target : Path) : Path :=
  if t.isDirectory target then target.child source.name else target

theorem sameFileMessage_ne (name target : String) : sameFileMessage name target ≠ "" := by
  simp [sameFileMessage, ToString.toString]

/-- **What copying a file can do**: nothing, for a reason, or put the file at another location, which
holds no directory. -/
theorem copyFile_cases {result : Except CopyFault Unit}
    (hrun : (copyFile source target).run.run t = (result, u)) :
    (u = t ∧ ∃ fault, result = .error fault ∧ fault ≠ .entries []) ∨
      result = .ok () ∧ ∃ l k content executable,
        t.stat source = .ok (l, .file content executable) ∧
        t.resolve (t.landingPath source target) = .ok k ∧ t.entry? k ≠ some .directory ∧ l ≠ k ∧
        u = t.put k (.file content executable) := by
  rw [copyFile, run_get_bind] at hrun
  dsimp only at hrun
  rw [← landingPath] at hrun
  generalize t.landingPath source target = path at hrun ⊢
  have hmessage := sameFileMessage_ne source.name path.text
  generalize sameFileMessage source.name path.text = message at hrun hmessage
  split at hrun
  · cases hrun
    exact .inl ⟨rfl, _, rfl, nofun⟩
  · cases hrun
    exact .inl ⟨rfl, _, rfl, nofun⟩
  · next l content executable hstat =>
    split at hrun
    · cases hrun
      exact .inl ⟨rfl, _, rfl, by simpa using hmessage⟩
    · next hother =>
      split at hrun
      · cases hrun
        exact .inl ⟨rfl, _, rfl, nofun⟩
      · next written hwrite =>
        obtain ⟨k, mode, hresolve, hdirectory, rfl⟩ := exists_put_of_write hwrite
        have hne : l ≠ k := by
          rintro rfl
          rw [stat_eq_ok_iff.2 ⟨hresolve, (stat_eq_ok_iff.1 hstat).2⟩] at hother
          exact hother (beq_self_eq_true _)
        rw [resolve_put hdirectory _ hresolve] at hrun
        dsimp only at hrun
        rw [put_put] at hrun
        cases hrun
        exact .inr ⟨rfl, l, k, content, executable, hstat, hresolve, hdirectory, hne, rfl⟩

/-- A file is put where nothing was. -/
theorem copyFile_eq_ok (htarget : ∀ l, t.resolve target = .ok l → l = v)
    (hnew : t.entry? v = none) (hrun : (copyFile source target).run.run t = (.ok (), u)) :
    ∃ l content executable, t.stat source = .ok (l, .file content executable) ∧
      t.resolve target = .ok v ∧ u = t.put v (.file content executable) := by
  have hpath : t.landingPath source target = target := by
    refine if_neg fun h => ?_
    obtain ⟨l, hresolve, hl⟩ := isDirectory_iff.1 h
    rw [htarget l hresolve, hnew] at hl
    cases hl
  obtain ⟨-, fault, hfault, -⟩ | ⟨-, l, k, content, executable, hstat, hresolve, -, -, hu⟩ :=
    copyFile_cases hrun
  · cases hfault
  · rw [hpath] at hresolve
    obtain rfl := htarget k hresolve
    exact ⟨l, content, executable, hstat, hresolve, hu⟩

/-- **A file that is copied is grafted** where nothing was. -/
theorem copyFile_grafts (ht : t.IsTree) (hsource : ∀ l, t.resolve source = .ok l → l = s)
    (htarget : ∀ l, t.resolve target = .ok l → l = v) (hnew : t.entry? v = none)
    (hrun : (copyFile source target).run.run t = (.ok (), u)) : Grafts t u s v target := by
  obtain ⟨l, content, executable, hstat, hresolve, rfl⟩ := copyFile_eq_ok htarget hnew hrun
  obtain ⟨hs, hfile⟩ := stat_eq_ok_iff.1 hstat
  obtain rfl := hsource l hs
  exact .of_put (ht.put_of_resolve hresolve (by rw [hnew]; nofun) _) ht hnew hfile
    (fun rel hrel => ht.entry?_descend (by rw [hfile]; nofun) hrel)
    (resolve_eq_ok_iff.1 hresolve).1

/-! ### Problems -/

/-- A file that is not copied is not so for a reason. -/
theorem copyFile_fault {fault : CopyFault}
    (hrun : (copyFile source target).run.run t = (.error fault, u)) : fault ≠ .entries [] := by
  obtain ⟨-, found, hfound, hne⟩ | ⟨hok, -⟩ := copyFile_cases hrun
  · rwa [Except.error.inj hfound]
  · cases hok

/-- An entry that is copied has no problems. -/
theorem problemsOf_of_ok {copy : Step CopyFault Unit} (h : copy.run.run t = (.ok (), u)) :
    (problemsOf source target copy).run.run t = (.ok [], u) := by
  have hcopied : (do copy; return [] : Step CopyFault (List CopyProblem)).run.run t =
      (.ok [], u) := by
    rw [run_bind_ok h]
    rfl
  exact run_tryCatch_ok hcopied

/-- What a fault means for the entry that was to be copied: its problems, or the end of the whole
copy. -/
def problemsFor (source target : Path) : CopyFault → Except CopyFault (List CopyProblem)
  | .entries problems => .ok problems
  | .file fault =>
    if fault.isReported then .ok [.entry source.text target.text fault.message]
    else .error (.file fault)

theorem problemsOf_of_error {copy : Step CopyFault Unit} {fault : CopyFault}
    (h : copy.run.run t = (.error fault, u)) :
    (problemsOf source target copy).run.run t = (problemsFor source target fault, u) := by
  have hfailed : (do copy; return [] : Step CopyFault (List CopyProblem)).run.run t =
      (.error fault, u) := run_bind_error h
  rw [problemsOf, run_tryCatch_error hfailed]
  cases fault with
  | entries problems => rfl
  | file fault =>
    by_cases hreported : fault.isReported = true
    · rw [problemsFor, if_pos hreported]
      dsimp only
      rw [if_pos hreported]
      rfl
    · rw [problemsFor, if_neg hreported]
      dsimp only
      rw [if_neg hreported]
      rfl

/-- What ends a whole copy is a fault of the system. -/
theorem problemsOf_fault {copy : Step CopyFault Unit} {fault : CopyFault}
    (hrun : (problemsOf source target copy).run.run t = (.error fault, u)) :
    fault ≠ .entries [] := by
  cases hcopy : copy.run.run t with
  | mk result t' =>
    cases result with
    | ok _ =>
      rw [problemsOf_of_ok hcopy] at hrun
      cases hrun
    | error found =>
      rw [problemsOf_of_error hcopy] at hrun
      cases found with
      | entries problems => cases hrun
      | file found =>
        rw [problemsFor] at hrun
        split at hrun
        · cases hrun
        · cases hrun
          nofun

/-- An entry without problems has been copied. -/
theorem run_of_problemsOf_nil {copy : Step CopyFault Unit}
    (hcopy : ∀ fault u, copy.run.run t = (.error fault, u) → fault ≠ .entries [])
    (hrun : (problemsOf source target copy).run.run t = (.ok [], u)) :
    copy.run.run t = (.ok (), u) := by
  cases hran : copy.run.run t with
  | mk result t' =>
    cases result with
    | ok _ =>
      rw [problemsOf_of_ok hran] at hrun
      rw [show t' = u from congrArg Prod.snd hrun]
    | error found =>
      rw [problemsOf_of_error hran] at hrun
      cases found with
      | entries problems =>
        have hnil : problems = [] := Except.ok.inj (congrArg Prod.fst hrun)
        exact absurd (congrArg CopyFault.entries hnil) (hcopy _ _ hran)
      | file found =>
        rw [problemsFor] at hrun
        split at hrun <;> cases hrun

/-! ### Directories -/

/-- The copy of one entry of a directory. -/
def copyEntry (budget : Nat) (source target : Path) (entry : String × Option Entry) :
    Step CopyFault Unit :=
  match entry.2 with
  | some .directory => copyTree budget (source.child entry.1) (target.child entry.1)
  | _ => copyFile (source.child entry.1) (target.child entry.1)

/-- The problems of the copy of one entry of a directory. -/
def entryProblems (budget : Nat) (source target : Path) (entry : String × Option Entry) :
    Step CopyFault (List CopyProblem) :=
  problemsOf (source.child entry.1) (target.child entry.1) (copyEntry budget source target entry)

/-- The entries of a directory, with their names. -/
def entriesIn (t : FileTree) (l : Location) : List (String × Option Entry) :=
  (t.namesIn l).map fun name => (name, t.entry? (l.child name))

/-- A directory is copied by making the new one and copying its entries, and then their problems are
reported. -/
theorem copyTree_run {budget : Nat} {l : Location} (hsource : t.stat source = .ok (l, .directory)) :
    (copyTree (budget + 1) source target).run.run t =
      (do
        (makeFromTop target.names.length target).adapt CopyFault.file
        let problems ← (t.entriesIn l).mapM (entryProblems budget source target)
        if problems.any (!·.isEmpty) then throw (.entries problems.flatten) :
          Step CopyFault Unit).run.run t := by
  rw [copyTree, run_get_bind, hsource]
  rfl

/-- What is copied as a directory is one. -/
theorem copyTree_run_of_stat {budget : Nat}
    (hsource : ∀ l, t.stat source ≠ .ok (l, .directory)) :
    ∃ fault, (copyTree (budget + 1) source target).run.run t = (.error (.file fault), t) := by
  rw [copyTree, run_get_bind]
  cases hstat : t.stat source with
  | error kind => exact ⟨_, rfl⟩
  | ok found =>
    obtain ⟨l, e⟩ := found
    cases e with
    | directory => exact absurd hstat (hsource l)
    | file content executable => exact ⟨_, rfl⟩

/-- A directory that is not made is a fault of the system. -/
theorem adapt_file_fault {x : Step FileFault Unit} {fault : CopyFault}
    (hrun : (x.adapt CopyFault.file).run.run t = (.error fault, u)) : fault ≠ .entries [] := by
  rw [run_adapt] at hrun
  cases hmade : (x.run.run t).1 with
  | ok _ =>
    rw [hmade] at hrun
    cases hrun
  | error found =>
    rw [hmade] at hrun
    cases hrun
    nofun

/-- A directory that is not copied is not so for a reason. -/
theorem copyTree_fault {budget : Nat} {fault : CopyFault}
    (hrun : (copyTree budget source target).run.run t = (.error fault, u)) :
    fault ≠ .entries [] := by
  cases budget with
  | zero =>
    cases hrun
    nofun
  | succ budget =>
    by_cases hsource : ∃ l, t.stat source = .ok (l, .directory)
    · obtain ⟨l, hsource⟩ := hsource
      rw [copyTree_run hsource] at hrun
      obtain hmade | ⟨_, m, -, hrun⟩ := run_bind_eq_error hrun
      · exact adapt_file_fault hmade
      · obtain hcopied | ⟨problems, u', -, hrun⟩ := run_bind_eq_error hrun
        · exact of_run_mapM_error (fun _ _ _ _ _ => problemsOf_fault) hcopied
        · split at hrun
          · next hany =>
            cases hrun
            simpa [List.flatten_eq_nil_iff] using hany
          · cases hrun
    · obtain ⟨found, hfailed⟩ :=
        @copyTree_run_of_stat t source target budget (not_exists.1 hsource)
      rw [hfailed] at hrun
      cases hrun
      nofun

/-- An entry that is not copied is not so for a reason. -/
theorem copyEntry_fault {budget : Nat} {entry : String × Option Entry} {fault : CopyFault}
    (hrun : (copyEntry budget source target entry).run.run t = (.error fault, u)) :
    fault ≠ .entries [] := by
  rw [copyEntry] at hrun
  split at hrun
  · exact copyTree_fault hrun
  · exact copyFile_fault hrun

/-! ### Entries of a directory -/

/-- Two directories apart from each other, of which one is copied into the other. -/
structure Ready (t : FileTree) (source target : Path) (s v : Location) : Prop where
  tree : t.IsTree
  source : t.stat source = .ok (s, .directory)
  target : t.stat target = .ok (v, .directory)
  apart : Apart s v

/-- After a graft in one of the directories there are still both of them. -/
theorem Ready.of_grafts {name : String} (h : Ready t source target s v)
    (hnew : t.entry? (v.child name) = none)
    (hgrafts : Grafts t u (s.child name) (v.child name) (target.child name)) :
    Ready u source target s v := by
  have hkeeps : ∀ k e, t.entry? k = some e → u.entry? k = some e :=
    fun _ _ => hgrafts.keeps h.tree hnew
  exact ⟨hgrafts.tree, stat_mono hkeeps h.source, stat_mono hkeeps h.target, h.apart⟩

/-- A tree in which one directory holds some entries of another one. -/
structure GraftsAll (t u : FileTree) (s v : Location) (target : Path) (names : List String) :
    Prop where
  tree : u.IsTree
  copied : ∀ name ∈ names, ∀ rel,
    u.entry? (v.descend (name :: rel)) = t.entry? (s.descend (name :: rel))
  elsewhere : ∀ k, (∀ name ∈ names, k.isWithin (v.child name) = false) → u.entry? k = t.entry? k
  usable : ∀ name ∈ names, ∀ rel, (u.entry? (v.descend (name :: rel))).isSome = true →
    (target.descend (name :: rel)).IsUsable

/-- One entry after the other is grafted. -/
theorem GraftsAll.cons {m : FileTree} {name : String} {names : List String} (hapart : Apart s v)
    (hfirst : Grafts t m (s.child name) (v.child name) (target.child name))
    (hrest : GraftsAll m u s v target names) (hname : name ∉ names) :
    GraftsAll t u s v target (name :: names) := by
  have hkept (rel : List String) :
      u.entry? (v.descend (name :: rel)) = m.entry? (v.descend (name :: rel)) := by
    refine hrest.elsewhere _ fun other hother => ?_
    have hne : name ≠ other := by
      rintro rfl
      exact hname hother
    rw [Location.descend_cons]
    exact ((Location.apart_child v hne).descend_left rel).left
  refine ⟨hrest.tree, fun other hother rel => ?_, fun k hk => ?_, fun other hother rel hrel => ?_⟩
  · obtain rfl | hother := List.mem_cons.1 hother
    · rw [hkept, Location.descend_cons, Location.descend_cons, hfirst.copied]
    · rw [hrest.copied other hother, hfirst.elsewhere]
      exact (hapart.descend (other :: rel) [name]).left
  · rw [List.forall_mem_cons] at hk
    rw [hrest.elsewhere k hk.2, hfirst.elsewhere k hk.1]
  · obtain rfl | hother := List.mem_cons.1 hother
    · rw [hkept, Location.descend_cons] at hrel
      rw [Path.descend_cons]
      exact hfirst.usable rel hrel
    · exact hrest.usable other hother rel hrel

/-- **Entries that are copied without a problem are grafted**, if each copy is a graft. -/
theorem mapM_graftsAll {budget : Nat}
    (hcopy : ∀ {t u name e}, Ready t source target s v → t.entry? (s.child name) = some e →
      t.entry? (v.child name) = none →
      (copyEntry budget source target (name, some e)).run.run t = (.ok (), u) →
      Grafts t u (s.child name) (v.child name) (target.child name))
    {names : List String} (hready : Ready t source target s v) (hnodup : names.Nodup)
    (hsource : ∀ name ∈ names, (t.entry? (s.child name)).isSome = true)
    (htarget : ∀ name ∈ names, t.entry? (v.child name) = none) {problems : List (List CopyProblem)}
    (hnone : problems.any (!·.isEmpty) = false)
    (hrun : ((names.map fun name => (name, t.entry? (s.child name))).mapM
      (entryProblems budget source target)).run.run t = (.ok problems, u)) :
    GraftsAll t u s v target names := by
  induction names generalizing t problems with
  | nil =>
    cases hrun
    exact ⟨hready.tree, nofun, fun _ _ => rfl, nofun⟩
  | cons name names ih =>
    rw [List.forall_mem_cons] at hsource htarget
    rw [List.nodup_cons] at hnodup
    obtain ⟨e, he⟩ := Option.isSome_iff_exists.1 hsource.1
    rw [List.map_cons] at hrun
    obtain ⟨found, rest, m, hfirst, hrest, rfl⟩ := exists_of_run_mapM_cons_ok hrun
    rw [List.any_cons, Bool.or_eq_false_iff, Bool.not_eq_false', List.isEmpty_iff] at hnone
    rw [hnone.1, he] at hfirst
    have hcopied := run_of_problemsOf_nil (fun _ _ => copyEntry_fault) hfirst
    have hgrafts := hcopy hready he htarget.1 hcopied
    -- the other entries, on both sides, are still what they were
    have hsources (other : String) : m.entry? (s.child other) = t.entry? (s.child other) :=
      hgrafts.elsewhere _ (hready.apart.descend [other] [name]).left
    have htargets : ∀ other ∈ names, m.entry? (v.child other) = none := by
      intro other hother
      have hne : other ≠ name := by
        rintro rfl
        exact hnodup.1 hother
      rw [hgrafts.elsewhere _ (Location.apart_child v hne).left, htarget.2 other hother]
    simp only [← hsources] at hrest hsource
    exact .cons hready.apart hgrafts (ih (hready.of_grafts htarget.1 hgrafts) hnodup.2 hsource.2
      htargets hnone.2 hrest) hnodup.1

/-! ### Whole directories -/

/-- All entries of a directory make up the whole directory. -/
theorem GraftsAll.grafts {names : List String} (h : GraftsAll t u s v target names)
    (hready : Ready t source target s v)
    (hall : ∀ name, name ∉ names → t.entry? (s.child name) = none)
    (hempty : ∀ name, t.entry? (v.child name) = none) : Grafts t u s v target := by
  have hother (name : String) (hname : name ∉ names) (rel : List String) :
      u.entry? (v.descend (name :: rel)) = none := by
    rw [h.elsewhere, Location.descend_cons, hready.tree.entry?_of_none (hempty name)]
    intro other hother
    have hne : name ≠ other := by
      rintro rfl
      exact hname hother
    rw [Location.descend_cons]
    exact ((Location.apart_child v hne).descend_left rel).left
  refine ⟨h.tree, fun rel => ?_, fun k hk => ?_, fun rel hrel => ?_⟩
  · cases rel with
    | nil =>
      have habove : ∀ name ∈ names, v.isWithin (v.child name) = false :=
        fun name _ => v.not_isWithin_descend (List.cons_ne_nil name [])
      rw [Location.descend_nil, Location.descend_nil, h.elsewhere v habove,
        (stat_eq_ok_iff.1 hready.source).2, (stat_eq_ok_iff.1 hready.target).2]
    | cons name rel =>
      by_cases hname : name ∈ names
      · exact h.copied name hname rel
      · rw [hother name hname, Location.descend_cons,
          hready.tree.entry?_of_none (hall name hname)]
  · exact h.elsewhere k fun name _ => Location.not_isWithin_below hk [name]
  · cases rel with
    | nil =>
      rw [Path.descend_nil]
      exact (resolve_eq_ok_iff.1 (stat_eq_ok_iff.1 hready.target).1).1
    | cons name rel =>
      by_cases hname : name ∈ names
      · exact h.usable name hname rel hrel
      · rw [hother name hname] at hrel
        cases hrel

/-- A name leads from a directory to the entry of that name. -/
theorem resolve_child_eq {p : Path} {k l : Location} {name : String} (hp : t.resolve p = .ok k)
    (hname : name ≠ "..") (h : t.resolve (p.child name) = .ok l) : l = k.child name := by
  obtain ⟨-, m, hm, hwalk⟩ := resolve_descend_iff.1 h
  obtain rfl : k = m := Except.ok.inj (hp.symm.trans hm)
  exact ((walk_eq_ok_iff (by simpa using Ne.symm hname)).1 hwalk).1

/-- What is apart from the end of a way is not on it. -/
theorem Lays.apart {names : List String} {m : FileTree} (h : Lays b names t m)
    (hapart : Apart s (b.descend names)) (rel : List String) :
    m.entry? (s.descend rel) = t.entry? (s.descend rel) := by
  refine h.elsewhere _ fun i _ heq => ?_
  have hend : (b.descend names).isWithin (s.descend rel) = true := by
    refine Location.isWithin_iff.2 ⟨names.drop i, ?_⟩
    rw [heq, Location.descend_descend, List.take_append_drop]
  have hwithin := Location.isWithin_trans hend (Location.isWithin_descend s rel)
  rw [hapart.right] at hwithin
  cases hwithin

section Way

variable {m : FileTree} {names rel : List String}

/-- Outside a way with a graft at its end everything is as it was. -/
theorem Lays.entry?_outside {k : Location} (h : Lays v names t m)
    (hgrafts : Grafts m u s (v.descend names) target) (hk : k.isWithin v = false) :
    u.entry? k = t.entry? k := by
  rw [hgrafts.elsewhere, h.elsewhere]
  · rintro i - rfl
    rw [Location.isWithin_descend] at hk
    cases hk
  · exact Location.not_isWithin_below hk names

/-- So it is below the beginning of the way, but not on it and not below its end. -/
theorem Lays.entry?_beside (h : Lays v names t m)
    (hgrafts : Grafts m u s (v.descend names) target) (hbelow : ¬ names <+: rel)
    (hway : ¬ rel <+: names) : u.entry? (v.descend rel) = t.entry? (v.descend rel) := by
  rw [hgrafts.elsewhere, h.elsewhere]
  · intro i _ heq
    rw [Location.descend_inj] at heq
    exact hway (heq ▸ List.take_prefix i names)
  · rwa [Bool.eq_false_iff, Ne, Location.descend_isWithin_iff]

/-- On the way there are directories. -/
theorem Lays.entry?_above (h : Lays v names t m)
    (hgrafts : Grafts m u s (v.descend names) target) (hbelow : ¬ names <+: rel)
    (hway : rel <+: names) : u.entry? (v.descend rel) = some .directory := by
  rw [hgrafts.elsewhere, List.prefix_iff_eq_take.1 hway]
  · exact h.onWay _ hway.length_le
  · rwa [Bool.eq_false_iff, Ne, Location.descend_isWithin_iff]

end Way

/-- A graft at the end of a way of one step is a graft. -/
theorem Lays.grafts_child {m : FileTree} {name : String} (h : Lays v [name] t m)
    (hv : t.entry? v = some .directory) (hapart : Apart s (v.child name))
    (hgrafts : Grafts m u s (v.child name) target) : Grafts t u s (v.child name) target where
  tree := hgrafts.tree
  usable := hgrafts.usable
  copied rel := by rw [hgrafts.copied, h.apart hapart]
  elsewhere k hk := by
    rw [hgrafts.elsewhere k hk]
    refine (h.tail hv).elsewhere k fun i _ heq => ?_
    have hself : k.isWithin (v.child name) = true := by
      rw [heq]
      exact Location.isWithin_descend _ _
    rw [hk] at hself
    cases hself

/-- The way to a new directory has been laid before its entries are copied. -/
theorem lays_of_makeFromTop {m : FileTree} {above : Nat} {names : List String} (ht : t.IsTree)
    (hholder : t.stat holder = .ok (b, .directory)) (hdown : ".." ∉ names)
    (hmade : ((makeFromTop above (holder.descend names)).adapt CopyFault.file).run.run t =
      (.ok (), m)) :
    Lays b names t m ∧ m.stat (holder.descend names) = .ok (b.descend names, .directory) := by
  have hattempts := makeFromTop_attempts above (holder.descend names) t
  rw [run_adapt] at hmade
  obtain ⟨hok, rfl⟩ := Prod.mk.inj hmade
  have hdone : ∃ a, ((makeFromTop above (holder.descend names)).run.run t).1 = .ok a := by
    cases hmake : ((makeFromTop above (holder.descend names)).run.run t).1 with
    | ok a => exact ⟨a, rfl⟩
    | error fault =>
      rw [hmake] at hok
      cases hok
  obtain ⟨a, hdone⟩ := hdone
  have hthere := hattempts.done a hdone
  have hlays := hattempts.makes.lays ht hholder hdown hthere
  have hend := (directories_of_isDirectory (stat_mono hlays.keeps hholder) hdown hthere).1
  have hlast := hlays.onWay names.length (Nat.le_refl _)
  rw [List.take_length] at hlast
  exact ⟨hlays, stat_eq_ok_iff.2 ⟨hend, hlast⟩⟩

/-- **A directory that is copied is grafted** where nothing was, after the way there has been laid. -/
theorem copyTree_grafts {budget : Nat} {names : List String} (ht : t.IsTree)
    (hsource : ∀ l, t.resolve source = .ok l → l = s)
    (hholder : t.stat holder = .ok (b, .directory)) (hdown : ".." ∉ names)
    (hapart : Apart s (b.descend names)) (hnew : t.entry? (b.descend names) = none)
    (hrun : (copyTree budget source (holder.descend names)).run.run t = (.ok (), u)) :
    ∃ m, Lays b names t m ∧ Grafts m u s (b.descend names) (holder.descend names) := by
  induction budget generalizing t u source holder s b names with
  | zero => cases hrun
  | succ budget ih =>
    -- an entry is copied by the budget that is left, or as a file
    have hcopy {t u : FileTree} {name : String} {e : Entry}
        (hready : Ready t source (holder.descend names) s (b.descend names))
        (he : t.entry? (s.child name) = some e)
        (hnone : t.entry? ((b.descend names).child name) = none)
        (hrun : (copyEntry budget source (holder.descend names) (name, some e)).run.run t =
          (.ok (), u)) :
        Grafts t u (s.child name) ((b.descend names).child name)
          ((holder.descend names).child name) := by
      have hname : name ≠ ".." := by
        rintro rfl
        exact hready.tree.notUp _ (by rw [he]; rfl) (by simp [Location.child])
      have hs := (stat_eq_ok_iff.1 hready.source).1
      have hv := stat_eq_ok_iff.1 hready.target
      have happart := hready.apart.descend [name] [name]
      rw [copyEntry] at hrun
      split at hrun
      · obtain ⟨m, hlays, hgrafts⟩ := ih hready.tree (fun _ => resolve_child_eq hs hname)
          hready.target (by simpa using Ne.symm hname) happart hnone hrun
        exact hlays.grafts_child hv.2 happart hgrafts
      · exact copyFile_grafts hready.tree (fun _ => resolve_child_eq hs hname)
          (fun _ => resolve_child_eq hv.1 hname) hnone hrun
    by_cases hstat : ∃ l, t.stat source = .ok (l, .directory)
    · obtain ⟨l, hstat⟩ := hstat
      obtain rfl := hsource l (stat_eq_ok_iff.1 hstat).1
      rw [copyTree_run hstat] at hrun
      obtain ⟨_, m, hmade, hrun⟩ := exists_of_run_bind_ok hrun
      obtain ⟨hlays, htarget⟩ := lays_of_makeFromTop ht hholder hdown hmade
      obtain ⟨problems, u', hcopied, hrun⟩ := exists_of_run_bind_ok hrun
      split at hrun
      · cases hrun
      · next hnone =>
        obtain rfl : u' = u := congrArg Prod.snd hrun
        have hready : Ready m source (holder.descend names) l (b.descend names) :=
          ⟨hlays.tree, stat_mono hlays.keeps hstat, htarget, hapart⟩
        have hsources (name : String) : m.entry? (l.child name) = t.entry? (l.child name) :=
          hlays.apart hapart [name]
        have htargets (name : String) : m.entry? ((b.descend names).child name) = none := by
          refine (hlays.elsewhere _ fun i _ heq => ?_).trans (ht.entry?_of_none hnew [name])
          rw [Location.child_eq_descend, Location.descend_descend, Location.descend_inj] at heq
          have := congrArg List.length heq
          simp at this
          omega
        rw [entriesIn] at hcopied
        simp only [← hsources] at hcopied
        have hall := mapM_graftsAll hcopy hready (ht.nodup_namesIn l)
          (fun name hname => by rw [hsources]; exact mem_namesIn.1 hname)
          (fun name _ => htargets name) (Bool.eq_false_iff.2 hnone) hcopied
        refine ⟨m, hlays, hall.grafts hready (fun name hname => ?_) htargets⟩
        rw [hsources]
        rw [mem_namesIn, Option.not_isSome_iff_eq_none] at hname
        exact hname
    · obtain ⟨found, hfailed⟩ := @copyTree_run_of_stat t source (holder.descend names)
        budget (not_exists.1 hstat)
      rw [hfailed] at hrun
      cases hrun

/-- **A directory that is copied below another one is grafted** where nothing was, after the way
there has been laid. Neither location is then below the other one. -/
theorem copyDirectory_grafts {names : List String} (ht : t.IsTree)
    (hsource : t.stat source = .ok (s, .directory)) (hholder : t.stat holder = .ok (b, .directory))
    (hdown : ".." ∉ names) (hnew : t.entry? (b.descend names) = none)
    (hrun : (copyDirectory source holder names).run.run t = (.ok (), u)) :
    Apart s (b.descend names) ∧
      ∃ m, Lays b names t m ∧ Grafts m u s (b.descend names) (holder.descend names) := by
  obtain ⟨hs, hdirectory⟩ := stat_eq_ok_iff.1 hsource
  obtain ⟨hb, -⟩ := stat_eq_ok_iff.1 hholder
  rw [copyDirectory, run_get_bind, hs, hb] at hrun
  dsimp only at hrun
  split at hrun
  · cases hrun
  · next hinside =>
    have hbelow (rel : List String) (heq : s = (b.descend names).descend rel) : False := by
      rw [heq, ht.entry?_of_none hnew] at hdirectory
      cases hdirectory
    have hapart : Apart s (b.descend names) := by
      constructor
      · rw [Bool.eq_false_iff]
        intro hwithin
        obtain ⟨rel, hrel⟩ := Location.isWithin_iff.1 hwithin
        exact hbelow rel hrel
      · rw [Bool.eq_false_iff]
        intro hwithin
        refine hinside (Bool.and_eq_true_iff.2 ⟨bne_iff_ne.2 fun heq => ?_, hwithin⟩)
        exact hbelow [] (by rw [Location.descend_nil]; exact heq.symm)
    exact ⟨hapart, copyTree_grafts ht (fun l hl => Except.ok.inj (hl.symm.trans hs)) hholder hdown
      hapart hnew hrun⟩

end LintReport.FileTree
