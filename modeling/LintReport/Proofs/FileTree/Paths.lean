import LintReport.FileTree
import Mathlib.Data.List.Infix
import Mathlib.Tactic.Common

/-!
# Where Paths Lead

A path is followed name by name, and every name but the last has to be that of a directory. So a
path that the system can be asked about leads on where a shorter one led, and it leads to the same
location in every tree that keeps the directories on its way. As long as it never goes up, the
location is found by its names alone.

## Main definitions

* `Path.IsUsable`: whether the system can be asked about a path.
* `FileTree.Location.descend`: the location of several names below another one.
* `FileTree.locationOf`: where a path leads if there are directories wherever it needs them.

## Main results

* `Path.size_text_le`: the text of a path is no longer than that of a path that goes on from it.
* `FileTree.resolve_eq_ok_iff`, `FileTree.resolve_descend_iff`: what it takes to lead somewhere.
* `FileTree.walk_eq_ok_iff`: **a way down is open as far as there are directories**.
* `FileTree.eq_locationOf`: where a path leads does not depend on the tree.
* `FileTree.resolve_mono`: **a path still leads where it led** as long as directories are kept.
* `FileTree.stat_eq_ok_iff`, `FileTree.isDirectory_iff`: what there is at a path.
* `FileTree.stat_mono`: it is still there as long as everything is kept.
-/

namespace LintReport

namespace Path

/-! ### Sizes of texts -/

/-- The text between slashes does not shrink when more names follow. -/
theorem size_intercalate_le (names more : List String) :
    ("/".intercalate names).utf8ByteSize ≤ ("/".intercalate (names ++ more)).utf8ByteSize := by
  by_cases hnames : names = []
  · rw [hnames, String.intercalate_nil]
    exact Nat.zero_le _
  by_cases hmore : more = []
  · rw [hmore, List.append_nil]
  · rw [String.intercalate_append_of_ne_nil hnames hmore]
    simp only [String.utf8ByteSize_append]
    omega

/-- The text of a path is never empty. -/
theorem size_text (p : Path) :
    p.text.utf8ByteSize =
      max 1 (p.start.text.utf8ByteSize + ("/".intercalate p.names).utf8ByteSize) := by
  rw [text, ← String.utf8ByteSize_append]
  split
  · next h => rw [String.isEmpty_iff.1 h]; rfl
  · next h =>
    have : (p.start.text ++ "/".intercalate p.names).utf8ByteSize ≠ 0 := fun hzero =>
      h (String.isEmpty_iff.2 (String.utf8ByteSize_eq_zero_iff.1 hzero))
    omega

/-- The text of a path is no longer than that of a path that goes on from it. -/
theorem size_text_le {p q : Path} (hstart : q.start = p.start) (hnames : q.names <+: p.names) :
    q.text.utf8ByteSize ≤ p.text.utf8ByteSize := by
  obtain ⟨more, hmore⟩ := hnames
  have := size_intercalate_le q.names more
  rw [size_text, size_text, hstart, ← hmore]
  omega

/-! ### Usable paths -/

/-- Whether the system can be asked about a path: there is no null character in it, and it is not
too long. -/
structure IsUsable (p : Path) : Prop where
  noNull : ∀ name ∈ p.names, '\x00' ∉ name.toList
  short : p.text.utf8ByteSize < FileTree.pathLimit

/-- The beginning of a usable path is usable. -/
theorem IsUsable.of_prefix {p q : Path} (h : p.IsUsable) (hstart : q.start = p.start)
    (hnames : q.names <+: p.names) : q.IsUsable where
  noNull name hname := h.noNull name (hnames.subset hname)
  short := Nat.lt_of_le_of_lt (size_text_le hstart hnames) h.short

theorem descend_nil (p : Path) : p.descend [] = p := by
  rw [descend, List.append_nil]

theorem descend_descend (p : Path) (names more : List String) :
    (p.descend names).descend more = p.descend (names ++ more) := by
  simp only [descend, List.append_assoc]

theorem child_eq_descend (p : Path) (name : String) : p.child name = p.descend [name] := rfl

theorem descend_cons (p : Path) (name : String) (names : List String) :
    p.descend (name :: names) = (p.child name).descend names := by
  rw [child_eq_descend, descend_descend, List.singleton_append]

/-- A path from which a usable one goes on is usable. -/
theorem IsUsable.of_descend {p : Path} {names : List String} (h : (p.descend names).IsUsable) :
    p.IsUsable :=
  h.of_prefix rfl (List.prefix_append _ _)

end Path

namespace FileTree

namespace Location

/-- The location of several names below another one. -/
def descend (l : Location) (names : List String) : Location := ⟨l.place, l.names ++ names⟩

@[simp] theorem descend_nil (l : Location) : l.descend [] = l := by
  rw [descend, List.append_nil]

@[simp] theorem descend_descend (l : Location) (names more : List String) :
    (l.descend names).descend more = l.descend (names ++ more) := by
  simp only [descend, List.append_assoc]

theorem child_eq_descend (l : Location) (name : String) : l.child name = l.descend [name] := rfl

theorem descend_cons (l : Location) (name : String) (names : List String) :
    l.descend (name :: names) = (l.child name).descend names := by
  rw [child_eq_descend, descend_descend, List.singleton_append]

theorem descend_inj {l : Location} {names more : List String} :
    l.descend names = l.descend more ↔ names = more := by
  simp [descend]

/-- What is within a location is found by names below it. -/
theorem isWithin_iff {k l : Location} : k.isWithin l = true ↔ ∃ names, k = l.descend names := by
  obtain ⟨place, names⟩ := k
  simp only [isWithin, Bool.and_eq_true, beq_iff_eq, List.isPrefixOf_iff_prefix, List.IsPrefix,
    descend, mk.injEq]
  exact ⟨fun ⟨hplace, more, hmore⟩ => ⟨more, hplace, hmore.symm⟩,
    fun ⟨more, hplace, hmore⟩ => ⟨hplace, more, hmore.symm⟩⟩

/-- Of two locations found from a third one, one is within the other as their names begin. -/
theorem descend_isWithin_iff {l : Location} {names more : List String} :
    (l.descend more).isWithin (l.descend names) = true ↔ names <+: more := by
  rw [isWithin_iff]
  simp only [descend_descend, descend_inj]
  exact ⟨fun ⟨rest, h⟩ => ⟨rest, h.symm⟩, fun ⟨rest, h⟩ => ⟨rest, h.symm⟩⟩

theorem isWithin_descend (l : Location) (names : List String) :
    (l.descend names).isWithin l = true :=
  isWithin_iff.2 ⟨names, rfl⟩

theorem isWithin_self (l : Location) : l.isWithin l = true :=
  isWithin_iff.2 ⟨[], l.descend_nil.symm⟩

/-- What holds a location is not below it. -/
theorem not_isWithin_descend (l : Location) {names : List String} (h : names ≠ []) :
    l.isWithin (l.descend names) = false := by
  rw [Bool.eq_false_iff]
  intro hwithin
  obtain ⟨more, hmore⟩ := isWithin_iff.1 hwithin
  rw [descend_descend, ← descend_nil l, descend_descend, descend_inj] at hmore
  simp [h] at hmore

/-- The directory that holds the last of some names below a location. -/
theorem parent_descend_concat (l : Location) (names : List String) (name : String) :
    (l.descend (names ++ [name])).parent = l.descend names := by
  rw [parent, descend, ← List.append_assoc, List.dropLast_concat]
  rfl

theorem parent_child (l : Location) (name : String) : (l.child name).parent = l := by
  rw [parent, child, List.dropLast_concat]

/-- Of two locations above a third one, one is above the other. -/
theorem isWithin_or_isWithin {k l m : Location} (hk : m.isWithin k = true)
    (hl : m.isWithin l = true) : k.isWithin l = true ∨ l.isWithin k = true := by
  obtain ⟨names, rfl⟩ := isWithin_iff.1 hk
  obtain ⟨more, hmore⟩ := isWithin_iff.1 hl
  obtain ⟨hplace, hnames⟩ : k.place = l.place ∧ k.names ++ names = l.names ++ more := by
    simpa [descend] using hmore
  simp only [isWithin, hplace, beq_self_eq_true, Bool.true_and, List.isPrefixOf_iff_prefix]
  exact (List.prefix_or_prefix_of_prefix (List.prefix_append k.names names)
    (hnames ▸ List.prefix_append l.names more)).symm

theorem isWithin_trans {k l m : Location} (hkl : k.isWithin l = true) (hlm : l.isWithin m = true) :
    k.isWithin m = true := by
  obtain ⟨names, rfl⟩ := isWithin_iff.1 hkl
  obtain ⟨more, rfl⟩ := isWithin_iff.1 hlm
  rw [descend_descend]
  exact isWithin_descend m _

/-- What holds a location that is not within another one is not within that either. -/
theorem not_isWithin_of_isWithin {k l m : Location} (hkm : k.isWithin m = false)
    (hkl : k.isWithin l = true) : l.isWithin m = false := by
  rw [Bool.eq_false_iff] at hkm ⊢
  exact fun hlm => hkm (isWithin_trans hkl hlm)

/-- What is not within a location is not within those below it. -/
theorem not_isWithin_below {k l : Location} (h : k.isWithin l = false) (names : List String) :
    k.isWithin (l.descend names) = false := by
  rw [Bool.eq_false_iff] at h ⊢
  exact fun hwithin => h (isWithin_trans hwithin (isWithin_descend l names))

/-- Two locations of which none is below the other. -/
structure Apart (k l : Location) : Prop where
  left : k.isWithin l = false
  right : l.isWithin k = false

theorem Apart.symm {k l : Location} (h : Apart k l) : Apart l k := ⟨h.right, h.left⟩

/-- What is below one of two locations that are apart is apart from the other. -/
theorem Apart.descend_left {k l : Location} (h : Apart k l) (names : List String) :
    Apart (k.descend names) l := by
  constructor
  · rw [Bool.eq_false_iff]
    intro hwithin
    obtain hkl | hlk := isWithin_or_isWithin (isWithin_descend k names) hwithin
    · exact absurd hkl (by simp [h.left])
    · exact absurd hlk (by simp [h.right])
  · exact not_isWithin_below h.right names

/-- What is within one of two locations that are apart is not within the other. -/
theorem Apart.not_isWithin {k l m : Location} (h : Apart k l) (hm : m.isWithin k = true) :
    m.isWithin l = false := by
  obtain ⟨names, rfl⟩ := isWithin_iff.1 hm
  exact (h.descend_left names).left

/-- What is below two locations that are apart is apart. -/
theorem Apart.descend {k l : Location} (h : Apart k l) (names more : List String) :
    Apart (k.descend names) (l.descend more) :=
  ((h.descend_left names).symm.descend_left more).symm

/-- Two names in one directory are apart. -/
theorem apart_child (l : Location) {name other : String} (h : name ≠ other) :
    Apart (l.child name) (l.child other) := by
  have hnot {name other : String} (h : name ≠ other) :
      (l.child name).isWithin (l.child other) = false := by
    rw [Bool.eq_false_iff]
    intro hwithin
    obtain ⟨more, hmore⟩ := isWithin_iff.1 hwithin
    simp [child, descend, h] at hmore
  exact ⟨hnot h, hnot h.symm⟩

end Location

variable {t u : FileTree} {k l : Location} {p : Path} {names more : List String}

/-! ### Steps -/

/-- What it takes to go one step down or up. -/
theorem step_eq_ok_iff {name : String} :
    t.step k name = .ok l ↔ t.entry? k = some .directory ∧
      ((name = ".." ∧ l = k.parent) ∨
        (name ≠ ".." ∧ name.utf8ByteSize ≤ nameLimit ∧ l = k.child name)) := by
  rw [step]
  cases t.entry? k with
  | none => simp
  | some e =>
    cases e with
    | file content executable => simp
    | directory =>
      dsimp only
      split
      · next hup => simp [beq_iff_eq.1 hup, eq_comm]
      · next hup =>
        rw [beq_iff_eq] at hup
        split
        · next hlong => simp [hup, Nat.not_le.2 hlong]
        · next hlong => simp [hup, Nat.not_lt.1 hlong, @eq_comm _ l]

/-- A step is the same in a tree that keeps the directory that it starts from. -/
theorem step_mono (h : t.entry? k = some .directory → u.entry? k = some .directory) {name : String}
    (hok : t.step k name = .ok l) : u.step k name = .ok l := by
  rw [step_eq_ok_iff] at hok ⊢
  exact hok.imp_left h

/-- Names lead to where the first ones and then the rest lead. -/
theorem walk_append :
    (names ++ more).foldlM t.step k = .ok l ↔
      ∃ m, names.foldlM t.step k = .ok m ∧ more.foldlM t.step m = .ok l := by
  rw [List.foldlM_append]
  cases names.foldlM t.step k with
  | error kind => simp [bind, Except.bind]
  | ok m => simp [bind, Except.bind]

/-- Names lead to where the rest leads after a first step. -/
theorem walk_cons {name : String} :
    (name :: names).foldlM t.step k = .ok l ↔
      ∃ m, t.step k name = .ok m ∧ names.foldlM t.step m = .ok l := by
  simpa using @walk_append t k l [name] names

/-- Names lead to where the last of them leads. -/
theorem walk_concat {name : String} :
    (names ++ [name]).foldlM t.step k = .ok l ↔
      ∃ m, names.foldlM t.step k = .ok m ∧ t.step m name = .ok l := by
  simp only [walk_append, List.foldlM_cons, List.foldlM_nil, bind_pure]

/-- Names still lead where they led as long as directories are kept. -/
theorem walk_mono (h : ∀ k, t.entry? k = some .directory → u.entry? k = some .directory)
    (hok : names.foldlM t.step k = .ok l) : names.foldlM u.step k = .ok l := by
  induction names using List.reverseRecOn generalizing l with
  | nil => exact hok
  | append_singleton names name ih =>
    rw [walk_concat] at hok ⊢
    obtain ⟨m, hfirst, hlast⟩ := hok
    exact ⟨m, ih hfirst, step_mono (h m) hlast⟩

/-- **A way down is open as far as there are directories**, and it is found by its names. -/
theorem walk_eq_ok_iff (hdown : ".." ∉ names) :
    names.foldlM t.step k = .ok l ↔ l = k.descend names ∧
      (∀ name ∈ names, name.utf8ByteSize ≤ nameLimit) ∧
      ∀ i < names.length, t.entry? (k.descend (names.take i)) = some .directory := by
  induction names generalizing k with
  | nil => simp [pure, Except.pure, eq_comm]
  | cons name names ih =>
    rw [List.mem_cons, not_or] at hdown
    have hfirst {m : Location} : t.step k name = .ok m ↔
        t.entry? k = some .directory ∧ name.utf8ByteSize ≤ nameLimit ∧ m = k.child name := by
      rw [step_eq_ok_iff]
      simp [Ne.symm hdown.1]
    have hsome (i : Nat) :
        (k.child name).descend (names.take i) = k.descend ((name :: names).take (i + 1)) := by
      rw [List.take_succ_cons, Location.descend_cons]
    rw [walk_cons, List.forall_mem_cons, List.length_cons, Nat.forall_lt_succ_left', List.take_zero,
      Location.descend_nil, Location.descend_cons]
    constructor
    · rintro ⟨m, hstep, hwalk⟩
      obtain ⟨hk, hsize, rfl⟩ := hfirst.1 hstep
      obtain ⟨hl, hsizes, hopen⟩ := (ih hdown.2).1 hwalk
      exact ⟨hl, ⟨hsize, hsizes⟩, hk, fun i hi => hsome i ▸ hopen i hi⟩
    · rintro ⟨hl, ⟨hsize, hsizes⟩, hk, hopen⟩
      exact ⟨_, hfirst.2 ⟨hk, hsize, rfl⟩,
        (ih hdown.2).2 ⟨hl, hsizes, fun i hi => (hsome i).symm ▸ hopen i hi⟩⟩

/-! ### Paths -/

/-- What it takes for a path to lead somewhere. -/
theorem resolve_eq_ok_iff :
    t.resolve p = .ok l ↔ p.IsUsable ∧ p.names.foldlM t.step (startLocation p.start) = .ok l := by
  rw [resolve]
  have hnull : (p.names.any fun name => name.toList.contains '\x00') = true ↔
      ¬ ∀ name ∈ p.names, '\x00' ∉ name.toList := by
    simp
  split
  · next h =>
    simp only [reduceCtorEq, false_iff, not_and]
    exact fun husable => absurd husable.noNull (hnull.1 h)
  · next h =>
    split
    · next hlong =>
      simp only [reduceCtorEq, false_iff, not_and]
      exact fun husable => absurd husable.short (Nat.not_lt.2 hlong)
    · next hlong =>
      exact (and_iff_right ⟨not_not.1 (mt hnull.2 h), Nat.not_le.1 hlong⟩).symm

/-- **A path still leads where it led** as long as directories are kept. -/
theorem resolve_mono (h : ∀ k, t.entry? k = some .directory → u.entry? k = some .directory)
    (hok : t.resolve p = .ok l) : u.resolve p = .ok l := by
  rw [resolve_eq_ok_iff] at hok ⊢
  exact hok.imp_right (walk_mono h)

/-- A usable path is followed by its names. -/
theorem resolve_of_isUsable (h : p.IsUsable) :
    t.resolve p = p.names.foldlM t.step (startLocation p.start) := by
  rw [resolve, if_neg (by simpa using h.noNull), if_neg (Nat.not_le.2 h.short)]

/-- A usable path is followed from where its beginning leads. -/
theorem resolve_descend (h : (p.descend names).IsUsable) (hp : t.resolve p = .ok k) :
    t.resolve (p.descend names) = names.foldlM t.step k := by
  rw [resolve_of_isUsable h.of_descend] at hp
  rw [resolve_of_isUsable h, Path.descend, List.foldlM_append, hp]
  rfl

/-- A usable path leads on from where its beginning leads. -/
theorem resolve_descend_iff :
    t.resolve (p.descend names) = .ok l ↔ (p.descend names).IsUsable ∧
      ∃ m, t.resolve p = .ok m ∧ names.foldlM t.step m = .ok l := by
  simp only [resolve_eq_ok_iff]
  constructor
  · rintro ⟨husable, hwalk⟩
    obtain ⟨m, hfirst, hrest⟩ := walk_append.1 hwalk
    exact ⟨husable, m, ⟨husable.of_descend, hfirst⟩, hrest⟩
  · rintro ⟨husable, m, ⟨-, hfirst⟩, hrest⟩
    exact ⟨husable, walk_append.2 ⟨m, hfirst, hrest⟩⟩

/-- The location that a name leads to from a directory. -/
def Location.go (l : Location) (name : String) : Location :=
  if name == ".." then l.parent else l.child name

/-- Where a path leads if there are directories wherever it needs them. -/
def locationOf (p : Path) : Location := p.names.foldl Location.go (startLocation p.start)

theorem foldl_go_of_walk (h : names.foldlM t.step k = .ok l) : l = names.foldl Location.go k := by
  induction names generalizing k with
  | nil => exact (Except.ok.inj h).symm
  | cons name names ih =>
    obtain ⟨m, hstep, hrest⟩ := walk_cons.1 h
    obtain ⟨-, ⟨rfl, rfl⟩ | ⟨hname, -, rfl⟩⟩ := step_eq_ok_iff.1 hstep
    · exact ih hrest
    · rw [List.foldl_cons, Location.go, if_neg (by simpa using hname)]
      exact ih hrest

/-- **Where a path leads does not depend on the tree**, if it leads anywhere. -/
theorem eq_locationOf (h : t.resolve p = .ok l) : l = locationOf p :=
  foldl_go_of_walk (resolve_eq_ok_iff.1 h).2

theorem locationOf_child {name : String} (hname : name ≠ "..") :
    locationOf (p.child name) = (locationOf p).child name := by
  rw [locationOf, Path.child, List.foldl_append, List.foldl_cons, List.foldl_nil, Location.go,
    if_neg (by simpa using hname), locationOf]

/-- A way down is followed by its names. -/
theorem foldl_go (hdown : ".." ∉ names) (k : Location) :
    names.foldl Location.go k = k.descend names := by
  induction names generalizing k with
  | nil => rw [List.foldl_nil, Location.descend_nil]
  | cons name names ih =>
    rw [List.mem_cons, not_or] at hdown
    rw [List.foldl_cons, Location.go, if_neg (by simpa using Ne.symm hdown.1), ih hdown.2,
      Location.descend_cons]

theorem locationOf_descend (hdown : ".." ∉ names) :
    locationOf (p.descend names) = (locationOf p).descend names := by
  rw [locationOf, Path.descend, List.foldl_append, foldl_go hdown, locationOf]

/-! ### What there is at a path -/

/-- What there is at a path is what the location holds that it leads to. -/
theorem stat_eq_ok_iff {e : Entry} :
    t.stat p = .ok (l, e) ↔ t.resolve p = .ok l ∧ t.entry? l = some e := by
  rw [stat]
  cases t.resolve p with
  | error kind => simp [bind, Except.bind]
  | ok m =>
    simp only [bind, Except.bind, Except.ok.injEq]
    cases hentry : t.entry? m with
    | none =>
      simp only [reduceCtorEq, false_iff, not_and]
      rintro rfl
      simp [hentry]
    | some found =>
      simp only [Except.ok.injEq, Prod.mk.injEq]
      constructor
      · rintro ⟨rfl, rfl⟩
        exact ⟨rfl, hentry⟩
      · rintro ⟨rfl, hfound⟩
        exact ⟨rfl, Option.some.inj (hentry.symm.trans hfound)⟩

/-- What there is at a path still is there as long as everything is kept. -/
theorem stat_mono (h : ∀ k e, t.entry? k = some e → u.entry? k = some e) {e : Entry}
    (hp : t.stat p = .ok (l, e)) : u.stat p = .ok (l, e) := by
  rw [stat_eq_ok_iff] at hp ⊢
  exact ⟨resolve_mono (fun k => h k _) hp.1, h l e hp.2⟩

/-- There is a directory where a path leads to one. -/
theorem isDirectory_iff :
    t.isDirectory p = true ↔ ∃ l, t.resolve p = .ok l ∧ t.entry? l = some .directory := by
  simp only [← stat_eq_ok_iff, isDirectory]
  constructor
  · intro h
    split at h
    · next l hstat => exact ⟨l, hstat⟩
    · cases h
  · rintro ⟨l, hstat⟩
    rw [hstat]

/-- A directory at a path is at the location that the path leads to. -/
theorem isDirectory_iff_stat :
    t.isDirectory p = true ↔ t.stat p = .ok (locationOf p, .directory) := by
  rw [isDirectory_iff, stat_eq_ok_iff]
  constructor
  · rintro ⟨l, hresolve, hl⟩
    rw [← eq_locationOf hresolve]
    exact ⟨hresolve, hl⟩
  · exact fun h => ⟨_, h⟩

/-- A directory is looked up unless the path is too long. -/
theorem hasDirectory_eq_ok_iff {found : Bool} :
    t.hasDirectory p = .ok found ↔
      t.resolve p ≠ .error .nameTooLong ∧ t.isDirectory p = found := by
  rw [hasDirectory, look, isDirectory, stat]
  cases t.resolve p with
  | error kind => cases kind <;> simp [bind, Except.bind, pure, Except.pure]
  | ok l =>
    dsimp only [bind, Except.bind]
    cases t.entry? l with
    | none => simp [pure, Except.pure]
    | some e => cases e <;> simp [pure, Except.pure]

/-- There still is a directory at a path as long as directories are kept. -/
theorem isDirectory_mono (h : ∀ k, t.entry? k = some .directory → u.entry? k = some .directory)
    (hp : t.isDirectory p = true) : u.isDirectory p = true := by
  obtain ⟨l, hresolve, hl⟩ := isDirectory_iff.1 hp
  exact isDirectory_iff.2 ⟨l, resolve_mono h hresolve, h l hl⟩

/-- What leads on to a directory is one. -/
theorem directory_of_walk (hwalk : names.foldlM t.step k = .ok l)
    (hl : t.entry? l = some .directory) : t.entry? k = some .directory := by
  cases names with
  | nil =>
    obtain rfl : k = l := Except.ok.inj hwalk
    exact hl
  | cons name names =>
    obtain ⟨m, hstep, -⟩ := walk_cons.1 hwalk
    exact (step_eq_ok_iff.1 hstep).1

/-- There is a directory where a path begins that leads on to one. -/
theorem isDirectory_of_descend (h : t.isDirectory (p.descend names) = true) :
    t.isDirectory p = true := by
  obtain ⟨l, hresolve, hl⟩ := isDirectory_iff.1 h
  obtain ⟨-, m, hm, hwalk⟩ := resolve_descend_iff.1 hresolve
  exact isDirectory_iff.2 ⟨m, hm, directory_of_walk hwalk hl⟩

end FileTree

end LintReport
