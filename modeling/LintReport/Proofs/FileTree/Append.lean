import LintReport.Proofs.FileTree.Paths

/-!
# Adding to a File

Octets are added to the file that a path leads to, or to a new one where there is none yet. The
directories on the way stay what they are, so the path still leads to the same location, and reading
it gives what was there before and then the octets. No other location changes.

## Main results

* `entry?_put_self`, `entry?_put_of_ne`: what a location holds after another one or itself is put.
* `put_eq_self`: nothing changes where what is there is put again.
* `resolve_put`: a path still leads where it led.
* `CanAppend.exists_append`: **what is read back after octets have been added**.
-/

namespace LintReport.FileTree

variable {t : FileTree} {l : Location} {e : Entry} {p : Path}

/-! ### Putting an entry -/

/-- A location that is put holds what was put there. -/
theorem entry?_put_self (h : l.names ≠ []) (t : FileTree) (e : Entry) :
    FileTree.entry? (t.put l e) l = some e := by
  rw [ entry?, if_neg (by simpa using h), put]
  induction t.entries with
  | nil => simp [setEntry]
  | cons head rest ih =>
    rw [setEntry]
    split
    · next hhead => simp [hhead]
    · next hhead => rw [List.find?_cons_of_neg (by simpa using hhead), ih]

/-- Every other location holds what it held. -/
theorem entry?_put_of_ne {k : Location} (h : k ≠ l) (t : FileTree) (e : Entry) :
    FileTree.entry? (t.put l e) k = t.entry? k := by
  have hfind (entries : List (Location × Entry)) :
      (setEntry l e entries).find? (fun x => x.1 == k) = entries.find? (fun x => x.1 == k) := by
    induction entries with
    | nil => simp [setEntry, Ne.symm h]
    | cons head rest ih =>
      rw [setEntry]
      split
      · next hhead =>
        rw [beq_iff_eq] at hhead
        rw [List.find?_cons_of_neg (by simp [hhead, Ne.symm h]),
          List.find?_cons_of_neg (by simp [hhead, Ne.symm h])]
      · rw [List.find?_cons, List.find?_cons, ih]
  rw [ entry?, entry?, put, hfind]

/-- What is put later is what stays. -/
theorem put_put (t : FileTree) (l : Location) (e e' : Entry) : (t.put l e).put l e' = t.put l e' := by
  have hset (entries : List (Location × Entry)) :
      setEntry l e' (setEntry l e entries) = setEntry l e' entries := by
    induction entries with
    | nil => simp [setEntry]
    | cons head rest ih =>
      rw [setEntry, setEntry]
      split <;> simp_all [setEntry]
  rw [put, put, put, hset]

/-- **Nothing changes where what is there is put again.** -/
theorem put_eq_self (hnames : l.names ≠ []) (h : t.entry? l = some e) : t.put l e = t := by
  have hset (entries : List (Location × Entry))
      (hfound : (entries.find? fun x => x.1 == l).map (·.2) = some e) :
      setEntry l e entries = entries := by
    induction entries with
    | nil => cases hfound
    | cons head rest ih =>
      rw [setEntry]
      split
      · next hhead =>
        rw [List.find?_cons_of_pos (by exact hhead)] at hfound
        rw [← Option.some.inj hfound]
      · next hhead =>
        rw [List.find?_cons_of_neg (by exact hhead)] at hfound
        rw [ih hfound]
  rw [ entry?, if_neg (by simpa using hnames)] at h
  rw [put, hset t.entries h]

/-- A directory stays one where something else is put. -/
theorem directory_put (hfile : t.entry? l ≠ some .directory) (e : Entry) (k : Location)
    (h : t.entry? k = some .directory) : FileTree.entry? (t.put l e) k = some .directory := by
  have hne : k ≠ l := by
    rintro rfl
    exact hfile h
  rw [ entry?_put_of_ne hne, h]

/-- **A path still leads where it led** after an entry has been put that was no directory. -/
theorem resolve_put (hfile : t.entry? l ≠ some .directory) (e : Entry) {k : Location}
    (h : t.resolve p = .ok k) : (t.put l e).resolve p = .ok k :=
  resolve_mono (directory_put hfile e) h

/-- A file that is put makes no directory. -/
theorem directory_of_put_file {content : List UInt8} {executable : Bool} {k : Location}
    (h : FileTree.entry? (t.put l (.file content executable)) k = some .directory) :
    t.entry? k = some .directory := by
  by_cases hkl : k = l
  · rw [hkl] at h ⊢
    by_cases hnames : l.names = []
    · rw [ entry?, hnames]
      rfl
    · rw [ entry?_put_self hnames] at h
      cases h
  · rwa [ entry?_put_of_ne hkl] at h

/-! ### Adding octets -/

/-- Whether octets can be added to the file at a path, or to a new one there. -/
def CanAppend (t : FileTree) (p : Path) : Prop := ∃ t', t.append p [] = .ok t'

/-- The octets of the file at a path; none where there is no file yet. -/
def contentAt (t : FileTree) (p : Path) : List UInt8 :=
  match t.read p with
  | .ok content => content
  | .error _ => []

/-- What is read at a path that leads to a location. -/
theorem read_of_resolve (h : t.resolve p = .ok l) :
    t.read p = match t.entry? l with
      | none => .error .notFound
      | some .directory => .error .isDirectory
      | some (.file content _) => .ok content := by
  rw [read, stat, h]
  dsimp only [bind, Except.bind]
  cases t.entry? l with
  | none => rfl
  | some found => cases found <;> rfl

/-- A file that can be read is found. -/
theorem hasFile_of_read {octets : List UInt8} (h : t.read p = .ok octets) :
    t.hasFile p = .ok true := by
  rw [read] at h
  cases hstat : t.stat p with
  | error kind =>
    rw [hstat] at h
    cases h
  | ok found =>
    obtain ⟨l, e⟩ := found
    rw [hstat] at h
    cases e with
    | directory => cases h
    | file content executable =>
      rw [hasFile, look, hstat]
      rfl

/-- A file that is there can be read. -/
theorem exists_read_of_hasFile (h : t.hasFile p = .ok true) : ∃ octets, t.read p = .ok octets := by
  rw [hasFile, look] at h
  rw [read]
  cases hstat : t.stat p with
  | error kind =>
    rw [hstat] at h
    cases kind <;> cases h
  | ok found =>
    obtain ⟨l, e⟩ := found
    rw [hstat] at h
    cases e with
    | directory => cases h
    | file content executable => exact ⟨content, rfl⟩

/-- What becomes of a file at a path that leads to a location. -/
theorem modify_of_resolve (h : t.resolve p = .ok l) (change : List UInt8 → List UInt8) :
    t.modify p change = match t.entry? l with
      | some .directory => .error .isDirectory
      | some (.file content executable) => .ok (t.put l (.file (change content) executable))
      | none =>
        match t.entry? l.parent with
        | some .directory => .ok (t.put l (.file (change []) false))
        | some (.file ..) => .error .notDirectory
        | none => .error .notFound := by
  rw [modify, h]
  rfl

/-- A file that is changed is put where its path leads, with what was there or anew. -/
theorem exists_put_of_modify {u : FileTree} {change : List UInt8 → List UInt8}
    (h : t.modify p change = .ok u) :
    ∃ l old executable, t.resolve p = .ok l ∧
      (t.entry? l = some (.file old executable) ∨
        t.entry? l = none ∧ old = [] ∧ executable = false) ∧
      u = t.put l (.file (change old) executable) := by
  cases hresolve : t.resolve p with
  | error kind =>
    rw [modify, hresolve] at h
    cases h
  | ok l =>
    rw [modify_of_resolve hresolve] at h
    cases hentry : t.entry? l with
    | some e =>
      rw [hentry] at h
      cases e with
      | directory => cases h
      | file old executable =>
        exact ⟨l, old, executable, rfl, .inl hentry, (Except.ok.inj h).symm⟩
    | none =>
      rw [hentry] at h
      dsimp only at h
      split at h
      · exact ⟨l, [], false, rfl, .inr ⟨hentry, rfl, rfl⟩, (Except.ok.inj h).symm⟩
      · cases h
      · cases h

/-- A file that is written is put where its path leads, unless that is a directory. -/
theorem exists_put_of_write {u : FileTree} {content : List UInt8} (h : t.write p content = .ok u) :
    ∃ l executable, t.resolve p = .ok l ∧ t.entry? l ≠ some .directory ∧
      u = t.put l (.file content executable) := by
  obtain ⟨l, old, executable, hresolve, hold, rfl⟩ := exists_put_of_modify h
  refine ⟨l, executable, hresolve, ?_, rfl⟩
  obtain hold | ⟨hold, -⟩ := hold <;> simp [hold]

/-- Adding octets puts a file, whose content is what was there before and the octets. -/
theorem CanAppend.exists_put (h : t.CanAppend p) :
    ∃ l executable, t.resolve p = .ok l ∧ t.entry? l ≠ some .directory ∧
      ∀ octets, t.append p octets =
        .ok (t.put l (.file (t.contentAt p ++ octets) executable)) := by
  obtain ⟨t', h⟩ := h
  cases hresolve : t.resolve p with
  | error kind =>
    rw [append, modify, hresolve] at h
    cases h
  | ok l =>
    rw [append, modify_of_resolve hresolve] at h
    rw [contentAt, read_of_resolve hresolve]
    simp only [append, modify_of_resolve hresolve]
    cases hentry : t.entry? l with
    | some found =>
      rw [hentry] at h
      cases found with
      | directory => cases h
      | file content executable => exact ⟨l, executable, rfl, by simp [hentry], by simp⟩
    | none =>
      rw [hentry] at h
      -- a new file needs a directory above it
      cases hparent : t.entry? l.parent with
      | none =>
        rw [hparent] at h
        cases h
      | some above =>
        rw [hparent] at h
        cases above with
        | file _ _ => cases h
        | directory => exact ⟨l, false, rfl, by simp [hentry], by simp⟩

/-- **What is read back after octets have been added**: what was there before and the octets. No
location changes but the one that the path leads to. -/
theorem CanAppend.exists_append (h : t.CanAppend p) (octets : List UInt8) :
    ∃ t', t.append p octets = .ok t' ∧ t'.read p = .ok (t.contentAt p ++ octets) ∧
      ∀ k, t.resolve p ≠ .ok k → t'.entry? k = t.entry? k := by
  obtain ⟨l, executable, hresolve, hfile, hput⟩ := h.exists_put
  have hnames : l.names ≠ [] := by
    intro hnil
    rw [ entry?, hnil] at hfile
    exact hfile rfl
  refine ⟨_, hput octets, ?_, fun k hk => entry?_put_of_ne ?_ t _⟩
  · rw [read_of_resolve (resolve_put hfile _ hresolve), entry?_put_self hnames]
  · rintro rfl
    exact hk hresolve

end LintReport.FileTree
