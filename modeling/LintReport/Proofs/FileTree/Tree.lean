import LintReport.Proofs.FileTree.Append
import Mathlib.Data.List.Nodup

/-!
# Trees of Files

Every file and every directory is held by a directory, and no location goes up or is in use twice.
So nothing is below a location that holds no directory. New entries in a directory keep all of this.

## Main definitions

* `FileTree.IsTree`: trees whose entries are held by directories.

## Main results

* `IsTree.entry?_descend`: nothing is below what is no directory.
* `IsTree.put`, `IsTree.put_of_resolve`: a new entry in a directory leaves a tree.
* `mem_namesIn`, `IsTree.nodup_namesIn`: the names in a directory are those of its entries, each
  once.
* `erase_put`, `IsTree.erase_of_none`: **what was made below a new location is gone when it is
  removed**.
-/

namespace LintReport.FileTree

variable {t : FileTree} {k l : Location} {e : Entry} {p : Path} {names : List String}

/-! ### Entries -/

theorem names_ne_nil_of_ne (h : t.entry? l ≠ some .directory) : l.names ≠ [] := by
  intro hnil
  rw [ entry?, hnil] at h
  exact h rfl

theorem ne_directory_of_file {content : List UInt8} {executable : Bool}
    (h : t.entry? l = some (.file content executable)) : t.entry? l ≠ some .directory := by
  simp [h]

theorem names_ne_nil_of_file {content : List UInt8} {executable : Bool}
    (h : t.entry? l = some (.file content executable)) : l.names ≠ [] :=
  names_ne_nil_of_ne (ne_directory_of_file h)

/-- A location below a place holds something where it is in use. -/
theorem entry?_isSome_iff (h : l.names ≠ []) :
    (t.entry? l).isSome = true ↔ l ∈ t.entries.map (·.1) := by
  rw [ entry?, if_neg (by simpa using h)]
  simp [List.find?_isSome]

/-- Whether the entries are those of a tree: each is held by a directory, none goes up, and no
location is in use twice. -/
structure IsTree (t : FileTree) : Prop where
  parent : ∀ l, (t.entry? l).isSome = true → t.entry? l.parent = some .directory
  notUp : ∀ l, (t.entry? l).isSome = true → ".." ∉ l.names
  nodup : (t.entries.map (·.1)).Nodup

/-- It is enough to look at the entries. -/
theorem IsTree.of_entries
    (h : ∀ x ∈ t.entries, t.entry? x.1.parent = some .directory ∧ ".." ∉ x.1.names)
    (hnodup : (t.entries.map (·.1)).Nodup) : t.IsTree := by
  have hmem (l : Location) (hl : (t.entry? l).isSome = true) (hnames : l.names ≠ []) :
      t.entry? l.parent = some .directory ∧ ".." ∉ l.names := by
    obtain ⟨x, hx, rfl⟩ := List.mem_map.1 ((entry?_isSome_iff hnames).1 hl)
    exact h x hx
  refine ⟨fun l hl => ?_, fun l hl => ?_, hnodup⟩
  · by_cases hnames : l.names = []
    · rw [ entry?, Location.parent, hnames]
      rfl
    · exact (hmem l hl hnames).1
  · by_cases hnames : l.names = []
    · rw [hnames]
      exact List.not_mem_nil
    · exact (hmem l hl hnames).2

/-- What is above something is a directory. -/
theorem IsTree.above (h : t.IsTree) (hsome : (t.entry? (l.descend names)).isSome = true) {i : Nat}
    (hi : i < names.length) : t.entry? (l.descend (names.take i)) = some .directory := by
  induction names using List.reverseRecOn with
  | nil => exact absurd hi (Nat.not_lt_zero i)
  | append_singleton names name ih =>
    have hparent := h.parent _ hsome
    rw [Location.parent_descend_concat] at hparent
    rw [List.length_append, List.length_singleton, Nat.lt_succ_iff_lt_or_eq] at hi
    obtain hi | rfl := hi
    · rw [List.take_append_of_le_length (Nat.le_of_lt hi)]
      exact ih (by rw [hparent]; rfl) hi
    · rw [List.take_left, hparent]

/-- **Nothing is below what is no directory.** -/
theorem IsTree.entry?_descend (h : t.IsTree) (hl : t.entry? l ≠ some .directory)
    (hnames : names ≠ []) : t.entry? (l.descend names) = none := by
  cases hentry : t.entry? (l.descend names) with
  | none => rfl
  | some e =>
    have habove := h.above (by rw [hentry]; rfl) (List.length_pos_of_ne_nil hnames)
    rw [List.take_zero, Location.descend_nil] at habove
    exact absurd habove hl

/-- Nothing is at or below where nothing is. -/
theorem IsTree.entry?_of_none (h : t.IsTree) (hl : t.entry? l = none) (names : List String) :
    t.entry? (l.descend names) = none := by
  by_cases hnames : names = []
  · rw [hnames, Location.descend_nil, hl]
  · exact h.entry?_descend (by rw [hl]; nofun) hnames

/-- What there is does not lie where nothing is. -/
theorem IsTree.not_isWithin (h : t.IsTree) (hl : t.entry? l = none) (hk : t.entry? k = some e) :
    k.isWithin l = false := by
  rw [Bool.eq_false_iff]
  intro hwithin
  obtain ⟨names, rfl⟩ := Location.isWithin_iff.1 hwithin
  rw [h.entry?_of_none hl] at hk
  cases hk

/-! ### New entries -/

/-- The locations in use after one has been put. -/
theorem map_setEntry (l : Location) (e : Entry) (entries : List (Location × Entry)) :
    (setEntry l e entries).map (·.1) =
      if l ∈ entries.map (·.1) then entries.map (·.1) else entries.map (·.1) ++ [l] := by
  induction entries with
  | nil => rfl
  | cons head rest ih =>
    rw [setEntry]
    split
    · next hhead => simp [← beq_iff_eq.1 hhead]
    · next hhead =>
      rw [beq_iff_eq] at hhead
      simp only [List.map_cons, ih, List.mem_cons, Ne.symm hhead, false_or]
      split <;> rfl

/-- Nothing is removed where an entry is put. -/
theorem length_le_put (t : FileTree) (l : Location) (e : Entry) :
    t.entries.length ≤ (t.put l e).entries.length := by
  have hmap := congrArg List.length (map_setEntry l e t.entries)
  rw [List.length_map] at hmap
  rw [put, hmap]
  split <;> simp

/-- **A new entry in a directory leaves a tree.** -/
theorem IsTree.put (h : t.IsTree) (hl : t.entry? l ≠ some .directory)
    (hparent : t.entry? l.parent = some .directory) (hup : ".." ∉ l.names) (e : Entry) :
    (t.put l e).IsTree where
  parent k hk := by
    by_cases hkl : k = l
    · rw [hkl]
      exact directory_put hl e _ hparent
    · rw [ entry?_put_of_ne hkl] at hk
      exact directory_put hl e _ (h.parent k hk)
  notUp k hk := by
    by_cases hkl : k = l
    · rwa [hkl]
    · rw [ entry?_put_of_ne hkl] at hk
      exact h.notUp k hk
  nodup := by
    rw [FileTree.put, map_setEntry]
    split
    · exact h.nodup
    · next hnew =>
      rw [← List.concat_eq_append]
      exact h.nodup.concat hnew

/-- A path that leads to no directory leads there through one. -/
theorem IsTree.exists_child (h : t.IsTree) (hresolve : t.resolve p = .ok l)
    (hl : t.entry? l ≠ some .directory) :
    ∃ k name, l = k.child name ∧ name ≠ ".." ∧ t.entry? k = some .directory ∧
      t.resolve p.parent = .ok k := by
  obtain ⟨husable, hwalk⟩ := resolve_eq_ok_iff.1 hresolve
  obtain hnil | ⟨names, name, hnames⟩ := p.names.eq_nil_or_concat'
  · rw [hnil] at hwalk
    obtain rfl : startLocation p.start = l := Except.ok.inj hwalk
    exact absurd (by cases p.start <;> rfl) hl
  · rw [hnames] at hwalk
    obtain ⟨k, hfirst, hstep⟩ := walk_concat.1 hwalk
    obtain ⟨hk, ⟨-, rfl⟩ | ⟨hup, -, rfl⟩⟩ := step_eq_ok_iff.1 hstep
    · exact absurd (h.parent k (by rw [hk]; rfl)) hl
    · have hparent : p.parent.names = names := by rw [Path.parent, hnames, List.dropLast_concat]
      refine ⟨k, name, rfl, hup, hk, resolve_eq_ok_iff.2 ⟨?_, by rw [hparent]; exact hfirst⟩⟩
      exact husable.of_prefix rfl (List.dropLast_prefix p.names)

/-- A new entry where a path leads leaves a tree. -/
theorem IsTree.put_of_resolve (h : t.IsTree) (hresolve : t.resolve p = .ok l)
    (hl : t.entry? l ≠ some .directory) (e : Entry) : (t.put l e).IsTree := by
  obtain ⟨k, name, rfl, hup, hk, -⟩ := h.exists_child hresolve hl
  refine h.put hl (by rw [Location.parent_child, hk]) ?_ e
  rw [Location.child, List.mem_append, List.mem_singleton, not_or]
  exact ⟨h.notUp k (by rw [hk]; rfl), Ne.symm hup⟩

/-! ### Names in a directory -/

/-- The last name of a location, if it lies directly in a directory. -/
def nameIn? (l k : Location) : Option String :=
  match k.names.getLast? with
  | some name => if k.parent == l then some name else none
  | none => none

theorem nameIn?_eq_some_iff {name : String} : nameIn? l k = some name ↔ k = l.child name := by
  obtain ⟨place, names⟩ := k
  obtain rfl | ⟨names, last, rfl⟩ := names.eq_nil_or_concat
  · simp [nameIn?, Location.child]
  · have hname : nameIn? l ⟨place, names.concat last⟩ =
        if (⟨place, names⟩ : Location) == l then some last else none := by
      rw [nameIn?, List.concat_eq_append, List.getLast?_concat, Location.parent,
        List.dropLast_concat]
    obtain ⟨place', names'⟩ := l
    rw [hname, Option.ite_none_right_eq_some]
    simp [Location.child, and_assoc]

theorem namesIn_eq (t : FileTree) (l : Location) :
    t.namesIn l = (t.entries.map (·.1)).filterMap (nameIn? l) := by
  rw [namesIn, List.filterMap_map]
  rfl

/-- **The names in a directory are those of its entries.** -/
theorem mem_namesIn {name : String} :
    name ∈ t.namesIn l ↔ (t.entry? (l.child name)).isSome = true := by
  rw [ entry?_isSome_iff (by simp [Location.child]), namesIn_eq, List.mem_filterMap]
  simp only [nameIn?_eq_some_iff, exists_eq_right]

/-- No name in a directory goes up. -/
theorem IsTree.ne_of_mem_namesIn (h : t.IsTree) {name : String} (hname : name ∈ t.namesIn l) :
    name ≠ ".." := by
  rintro rfl
  exact h.notUp _ (mem_namesIn.1 hname) (by simp [Location.child])

/-- A name is in a directory once. -/
theorem IsTree.nodup_namesIn (h : t.IsTree) (l : Location) : (t.namesIn l).Nodup := by
  rw [namesIn_eq]
  refine h.nodup.filterMap fun k k' name hk hk' => ?_
  rw [nameIn?_eq_some_iff.1 hk, nameIn?_eq_some_iff.1 hk']

/-! ### Removing -/

/-- What is put at or below a location is gone when that location is removed. -/
theorem erase_put (h : k.isWithin l = true) (t : FileTree) (e : Entry) :
    (t.put k e).erase l = t.erase l := by
  have hfilter (entries : List (Location × Entry)) :
      (setEntry k e entries).filter (fun x => !x.1.isWithin l) =
        entries.filter (fun x => !x.1.isWithin l) := by
    induction entries with
    | nil => simp [setEntry, h]
    | cons head rest ih =>
      rw [setEntry]
      split
      · next hhead => simp [beq_iff_eq.1 hhead, h]
      · rw [List.filter_cons, List.filter_cons, ih]
  rw [ erase, erase, FileTree.put, hfilter]

/-- Removing what is not there changes nothing. -/
theorem IsTree.erase_of_none (h : t.IsTree) (hl : t.entry? l = none) : t.erase l = t := by
  rw [ erase, List.filter_eq_self.2]
  intro x hx
  rw [Bool.not_eq_true', Bool.eq_false_iff]
  intro hwithin
  obtain ⟨names, hnames⟩ := Location.isWithin_iff.1 hwithin
  have hnone := h.entry?_of_none hl names
  have hnil : x.1.names ≠ [] := by
    rw [hnames]
    simp [Location.descend, names_ne_nil_of_ne (t := t) (l := l) (by simp [hl])]
  have hsome := (entry?_isSome_iff hnil).2 (List.mem_map_of_mem hx)
  rw [hnames, hnone] at hsome
  cases hsome

end LintReport.FileTree
