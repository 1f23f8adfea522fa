import LintReport.Proofs.FileTree.Copying
import LintReport.Proofs.Session
import LintReport.Rules.Vendor

/-!
# Copying the Entries of a Selection

The directories of a selection are asked for and copied one after the other. None of them lies in
another one, and no copy makes a directory of the rules that was not there. So it does not matter in
which order they are copied: in the end, what was a directory before the first of them has been
copied from what it held then, and nothing else has.

## Main definitions

* `Rules.Shelf`: a directory in which no rules are kept yet.
* `Rules.Copied`: a tree after some entries have been copied.

## Main results

* `Rules.vendorEntry_cases`, `Rules.vendorEntry_ok`: what is done for one entry.
* `Rules.Shelf.stat_source`: copying makes no directory of the rules.
* `Rules.Copied.of_grafts`: one more entry is copied.
* `Rules.vendorEntries_copied`: **so all entries of a selection are copied**.
-/

namespace LintReport

/-! ### Entries of a selection -/

namespace LanguageSelector

variable {selector : LanguageSelector} {names other : List String}

/-- Every entry is one of the selection of all languages. -/
theorem mem_entries_all (h : names ∈ selector.entries) : names ∈ all.entries := by
  have hall (language : RuleLanguage) : ∀ names ∈ (only language).entries, names ∈ all.entries := by
    cases language <;> decide
  cases selector with
  | all => exact h
  | only language => exact hall language names h

theorem up_notMem_entry (h : names ∈ selector.entries) : ".." ∉ names := by
  have hall : ∀ names ∈ all.entries, ".." ∉ names := by decide
  exact hall names (mem_entries_all h)

theorem rules_notMem_entry (h : names ∈ selector.entries) : "rules" ∉ names := by
  have hall : ∀ names ∈ all.entries, "rules" ∉ names := by decide
  exact hall names (mem_entries_all h)

/-! The names that lead to the copy of an entry can all be used. -/

theorem up_notMem_copy (h : names ∈ selector.entries) : ".." ∉ "rules" :: names := by
  have hall : ∀ names ∈ all.entries, ".." ∉ "rules" :: names := by decide
  exact hall names (mem_entries_all h)

theorem size_of_mem_copy (h : names ∈ selector.entries) :
    ∀ name ∈ "rules" :: names, name.utf8ByteSize ≤ FileTree.nameLimit := by
  have hall : ∀ names ∈ all.entries, ∀ name ∈ "rules" :: names,
      name.utf8ByteSize ≤ FileTree.nameLimit := by
    decide
  exact hall names (mem_entries_all h)

theorem null_notMem_copy (h : names ∈ selector.entries) :
    ∀ name ∈ "rules" :: names, '\x00' ∉ name.toList := by
  have hall : ∀ names ∈ all.entries, ∀ name ∈ "rules" :: names, '\x00' ∉ name.toList := by decide
  exact hall names (mem_entries_all h)

/-- No entry lies in another one. -/
theorem eq_of_prefix_entry (h : names ∈ selector.entries) (hother : other ∈ selector.entries)
    (hbegins : names <+: other) : names = other := by
  have hall : ∀ names ∈ all.entries, ∀ other ∈ all.entries, names <+: other → names = other := by
    decide
  exact hall names (mem_entries_all h) other (mem_entries_all hother) hbegins

/-- Entries with something in common below them are the same. -/
theorem eq_of_prefixes (h : names ∈ selector.entries) (hother : other ∈ selector.entries)
    {rel : List String} (hnames : names <+: rel) (hothers : other <+: rel) : names = other := by
  obtain hbegins | hbegins := List.prefix_or_prefix_of_prefix hnames hothers
  · exact eq_of_prefix_entry h hother hbegins
  · exact (eq_of_prefix_entry hother h hbegins).symm

/-- The entries are the same in both orders. -/
theorem mem_entriesSharedFirst : names ∈ selector.entriesSharedFirst ↔ names ∈ selector.entries := by
  cases selector with
  | only language => exact Iff.rfl
  | all => simp [entriesSharedFirst, entries, languages, or_left_comm]

/-- Every entry comes once. -/
theorem nodup_entriesSharedFirst (selector : LanguageSelector) :
    selector.entriesSharedFirst.Nodup := by
  cases selector with
  | all => decide
  | only language => cases language <;> decide

/-- An entry has not been done before it comes. -/
theorem notMem_of_prefix {done : List (List String)}
    (h : done ++ [names] <+: selector.entriesSharedFirst) : names ∉ done := by
  have hnodup := h.sublist.nodup (nodup_entriesSharedFirst selector)
  rw [List.nodup_append] at hnodup
  exact fun hold => hnodup.2.2 names hold names (List.mem_singleton_self _) rfl

end LanguageSelector

namespace Rules

open FileTree (Location Entry stat_eq_ok_iff isDirectory_iff resolve_descend_iff resolve_mono
  walk_eq_ok_iff)
open FileTree.Location (Apart isWithin_iff isWithin_descend isWithin_self)
open LanguageSelector (up_notMem_entry rules_notMem_entry eq_of_prefix_entry eq_of_prefixes)

variable {m u w : FileTree} {h k l r v : Location} {root holder copy : Path}
  {names other : List String} {done : List (List String)} {selector : LanguageSelector}

/-! ### One entry -/

/-- **What is done for one entry**: it is copied if it is a directory, and nothing is done if it is
none or cannot be asked for. -/
theorem vendorEntry_cases {result : Except VendorFault Unit} {s s' : Session}
    (hrun : (vendorEntry root holder names).run.run s = (result, s')) :
    (s'.files = s.files ∧ (result = .ok () →
        s.files.resolve (root.descend names) ≠ .error .nameTooLong ∧
          s.files.isDirectory (root.descend names) = false)) ∨
      s.files.isDirectory (root.descend names) = true ∧ ∃ copied,
        (FileTree.copyDirectory (root.descend names) holder ("rules" :: names)).run.run s.files =
          (copied, s'.files) ∧ (result = .ok () → copied = .ok ()) := by
  rw [vendorEntry, Run.run_files_bind] at hrun
  cases hasked : s.files.hasDirectory (root.descend names) with
  | error fault =>
    rw [hasked] at hrun
    cases hrun
    exact .inl ⟨rfl, nofun⟩
  | ok found =>
    have hknown := FileTree.hasDirectory_eq_ok_iff.1 hasked
    have hasking : (Run.ofExcept ((s.files.hasDirectory (root.descend names)).mapError
        VendorFault.file)).run.run s = (.ok found, s) := by
      rw [hasked]
      rfl
    rw [run_bind_ok hasking] at hrun
    cases found with
    | false =>
      rw [if_neg Bool.false_ne_true] at hrun
      cases hrun
      exact .inl ⟨rfl, fun _ => hknown⟩
    | true =>
      rw [if_pos rfl] at hrun
      refine .inr ⟨hknown.2, ?_⟩
      cases hcopy : (FileTree.copyDirectory (root.descend names) holder
          ("rules" :: names)).run.run s.files with
      | mk copied t =>
        have hcopying := Run.run_onFiles ((FileTree.copyDirectory (root.descend names) holder
          ("rules" :: names)).adapt VendorFault.copy) s
        rw [run_adapt, hcopy] at hcopying
        cases copied with
        | error fault =>
          rw [run_bind_error hcopying] at hrun
          cases hrun
          exact ⟨_, rfl, nofun⟩
        | ok _ =>
          rw [run_bind_ok hcopying] at hrun
          cases hrun
          exact ⟨_, rfl, fun _ => rfl⟩

/-- An entry that is done for without a fault has been copied or is no directory. -/
theorem vendorEntry_ok {s s' : Session}
    (hrun : (vendorEntry root holder names).run.run s = (.ok (), s')) :
    s.files.isDirectory (root.descend names) = false ∧ s'.files = s.files ∨
      (∃ l, s.files.stat (root.descend names) = .ok (l, .directory)) ∧
        (FileTree.copyDirectory (root.descend names) holder ("rules" :: names)).run.run s.files =
          (.ok (), s'.files) := by
  obtain ⟨hfiles, hknown⟩ | ⟨hdirectory, copied, hcopied, hok⟩ := vendorEntry_cases hrun
  · exact .inl ⟨(hknown rfl).2, hfiles⟩
  · rw [hok rfl] at hcopied
    exact .inr ⟨⟨_, FileTree.isDirectory_iff_stat.1 hdirectory⟩, hcopied⟩

/-! ### Directories without rules -/

/-- A directory in which no rules are kept yet. -/
structure Shelf (m : FileTree) (holder : Path) (h : Location) : Prop where
  tree : m.IsTree
  holder : m.stat holder = .ok (h, .directory)
  empty : m.entry? (h.child "rules") = none

/-- A tree after the directories of some entries have been copied to where nothing was. -/
structure Copied (m u : FileTree) (root copy : Path) (v : Location) (done : List (List String)) :
    Prop where
  tree : u.IsTree
  elsewhere : ∀ k, k.isWithin v = false → u.entry? k = m.entry? k
  copied : ∀ names ∈ done, ∀ l, m.stat (root.descend names) = .ok (l, .directory) →
    Apart l v ∧ ∀ rel, u.entry? (v.descend (names ++ rel)) = m.entry? (l.descend rel)
  others : ∀ rel e, u.entry? (v.descend rel) = some e →
    ∃ names ∈ done, m.isDirectory (root.descend names) = true ∧
      (names <+: rel ∨ rel <+: names ∧ e = .directory)
  usable : ∀ names ∈ done, m.isDirectory (root.descend names) = true →
    ∀ rel, (u.entry? (v.descend (names ++ rel))).isSome = true →
      (copy.descend (names ++ rel)).IsUsable

namespace Shelf

/-- What there is does not lie where rules will be kept. -/
theorem not_isWithin (hs : Shelf m holder h) {e : Entry} (hk : m.entry? k = some e) :
    k.isWithin (h.child "rules") = false :=
  hs.tree.not_isWithin hs.empty hk

/-- Where one entry of the rules is, no other one lies where rules will be kept. -/
theorem not_isWithin_descend (hs : Shelf m holder h) {e : Entry}
    (hother : m.entry? (r.descend other) = some e) (hnames : "rules" ∉ names) :
    (r.descend names).isWithin (h.child "rules") = false := by
  have hroot : r.isWithin (h.child "rules") = false :=
    Location.not_isWithin_of_isWithin (hs.not_isWithin hother) (isWithin_descend r other)
  rw [Bool.eq_false_iff]
  intro hwithin
  obtain habove | hbelow := Location.isWithin_or_isWithin (isWithin_descend r names) hwithin
  · rw [hroot] at habove
    cases habove
  · -- the way down from the rules would pass their own directory
    obtain ⟨first, hfirst⟩ := isWithin_iff.1 hbelow
    obtain ⟨rest, hrest⟩ := isWithin_iff.1 hwithin
    rw [hfirst, Location.descend_descend, Location.descend_inj] at hrest
    obtain rfl | ⟨first, last, rfl⟩ := first.eq_nil_or_concat'
    · rw [Location.descend_nil] at hfirst
      rw [hfirst, isWithin_self] at hroot
      cases hroot
    · have hlast : "rules" = last := by
        have hnames := congrArg (fun l : Location => l.names.getLast?) hfirst
        simpa [Location.child, Location.descend, ← List.append_assoc] using hnames
      simp [hrest, hlast] at hnames

end Shelf

namespace Copied

/-- What there was is kept. -/
theorem keeps (hc : Copied m u root copy (h.child "rules") done) (hs : Shelf m holder h) {e : Entry}
    (hk : m.entry? k = some e) : u.entry? k = some e := by
  rw [hc.elsewhere k (hs.not_isWithin hk), hk]

theorem isDirectory_mono (hc : Copied m u root copy (h.child "rules") done)
    (hs : Shelf m holder h) {p : Path} (hp : m.isDirectory p = true) : u.isDirectory p = true :=
  FileTree.isDirectory_mono (fun _ => hc.keeps hs) hp

/-- **Copying makes no directory of the rules**: what is one now was one before. -/
theorem stat_source (hc : Copied m u root copy (h.child "rules") done) (hs : Shelf m holder h)
    (hdone : ∀ names ∈ done, names ∈ selector.entries) (hnames : names ∈ selector.entries)
    (hstat : u.stat (root.descend names) = .ok (l, .directory)) :
    m.stat (root.descend names) = .ok (l, .directory) := by
  obtain ⟨hresolve, hl⟩ := stat_eq_ok_iff.1 hstat
  by_cases hany : ∃ other ∈ done, m.isDirectory (root.descend other) = true
  · -- where one entry is, the rules are found, and none of them is where they are copied to
    obtain ⟨other, hother, hdirectory⟩ := hany
    obtain ⟨k, hk, hkdirectory⟩ := isDirectory_iff.1 hdirectory
    obtain ⟨-, r, hr, hotherwalk⟩ := resolve_descend_iff.1 hk
    obtain ⟨rfl, -, -⟩ := (walk_eq_ok_iff (up_notMem_entry (hdone other hother))).1 hotherwalk
    obtain ⟨husable, r', hr', hwalk⟩ := resolve_descend_iff.1 hresolve
    have hroot : u.resolve root = .ok r := resolve_mono (fun _ => hc.keeps hs) hr
    obtain rfl : r = r' := Except.ok.inj (hroot.symm.trans hr')
    obtain ⟨rfl, hsizes, -⟩ := (walk_eq_ok_iff (up_notMem_entry hnames)).1 hwalk
    rw [hc.elsewhere _ (hs.not_isWithin_descend hkdirectory (rules_notMem_entry hnames))] at hl
    have hopen (i : Nat) (hi : i < names.length) :
        m.entry? (r.descend (names.take i)) = some .directory :=
      hs.tree.above (by rw [hl]; rfl) hi
    exact stat_eq_ok_iff.2 ⟨resolve_descend_iff.2 ⟨husable, r, hr,
      (walk_eq_ok_iff (up_notMem_entry hnames)).2 ⟨rfl, hsizes, hopen⟩⟩, hl⟩
  · -- nothing has been copied yet
    have hsame (k : Location) (e : Entry) (hk : u.entry? k = some e) : m.entry? k = some e := by
      rw [← hk, hc.elsewhere]
      rw [Bool.eq_false_iff]
      intro hwithin
      obtain ⟨rel, rfl⟩ := isWithin_iff.1 hwithin
      obtain ⟨other, hother, hdirectory, -⟩ := hc.others rel e hk
      exact hany ⟨other, hother, hdirectory⟩
    exact FileTree.stat_mono hsame hstat

/-- Before the first entry nothing has been copied. -/
theorem nil (hs : Shelf m holder h) : Copied m m root copy (h.child "rules") [] where
  tree := hs.tree
  elsewhere _ _ := rfl
  copied := nofun
  others rel e hrel := by
    rw [hs.tree.entry?_of_none hs.empty] at hrel
    cases hrel
  usable := nofun

/-- An entry that is no directory is not copied. -/
theorem skip (hc : Copied m u root copy v done)
    (hnot : m.isDirectory (root.descend names) = false) :
    Copied m u root copy v (done ++ [names]) := by
  have hlast {other : List String} (hother : other ∈ done ++ [names])
      (hdirectory : m.isDirectory (root.descend other) = true) : other ∈ done := by
    obtain hother | hother := List.mem_append.1 hother
    · exact hother
    · rw [List.mem_singleton.1 hother, hnot] at hdirectory
      cases hdirectory
  refine ⟨hc.tree, hc.elsewhere, fun other hother l hl => ?_, fun rel e hrel => ?_,
    fun other hother hdirectory => hc.usable other (hlast hother hdirectory) hdirectory⟩
  · obtain ⟨hresolve, hldirectory⟩ := stat_eq_ok_iff.1 hl
    have hdirectory := isDirectory_iff.2 ⟨l, hresolve, hldirectory⟩
    exact hc.copied other (hlast hother hdirectory) l hl
  · obtain ⟨other, hother, hfound⟩ := hc.others rel e hrel
    exact ⟨other, List.mem_append_left _ hother, hfound⟩

/-- Nothing is there yet for an entry that has not been asked for. -/
theorem entry?_of_notMem (hc : Copied m u root copy v done)
    (hdone : ∀ names ∈ done, names ∈ selector.entries) (hnames : names ∈ selector.entries)
    (hnew : names ∉ done) : u.entry? (v.descend names) = none := by
  cases hentry : u.entry? (v.descend names) with
  | none => rfl
  | some e =>
    obtain ⟨other, hother, -, hfound⟩ := hc.others names e hentry
    obtain rfl : other = names := by
      obtain hbegins | ⟨hbegins, -⟩ := hfound
      · exact eq_of_prefix_entry (hdone other hother) hnames hbegins
      · exact (eq_of_prefix_entry hnames (hdone other hother) hbegins).symm
    exact absurd hother hnew

/-- **One more entry is copied** by a graft at the end of its way. -/
theorem of_grafts {x : FileTree} (hc : Copied m u root copy v done) (hnew : names ∉ done)
    (hdone : ∀ names ∈ done, names ∈ selector.entries) (hnames : names ∈ selector.entries)
    (hl : m.stat (root.descend names) = .ok (l, .directory)) (hapart : Apart l v)
    (hend : Apart l (v.descend names)) (hlays : FileTree.Lays v names u x)
    (hgrafts : FileTree.Grafts x w l (v.descend names) (copy.descend names)) :
    Copied m w root copy v (done ++ [names]) := by
  have hdirectory : m.isDirectory (root.descend names) = true := by
    obtain ⟨hresolve, hldirectory⟩ := stat_eq_ok_iff.1 hl
    exact isDirectory_iff.2 ⟨l, hresolve, hldirectory⟩
  have hkept (other : List String) (hother : other ∈ done) (rel : List String) :
      w.entry? (v.descend (other ++ rel)) = u.entry? (v.descend (other ++ rel)) := by
    have hne : other ≠ names := by
      rintro rfl
      exact hnew hother
    have hbegins := List.prefix_append other rel
    refine hlays.entry?_beside hgrafts (fun hbelow => hne ?_) (fun hway => hne ?_)
    · exact eq_of_prefixes (hdone other hother) hnames hbegins hbelow
    · exact eq_of_prefix_entry (hdone other hother) hnames (hbegins.trans hway)
  have hlast : names ∈ done ++ [names] := List.mem_append_right _ (List.mem_singleton_self _)
  refine ⟨hgrafts.tree, fun k hk => ?_, fun other hother k hk => ?_, fun rel e hrel => ?_,
    fun other hother hotherdirectory rel hrel => ?_⟩
  · rw [hlays.entry?_outside hgrafts hk, hc.elsewhere k hk]
  · obtain hother | hother := List.mem_append.1 hother
    · obtain ⟨hkapart, hsame⟩ := hc.copied other hother k hk
      exact ⟨hkapart, fun rel => (hkept other hother rel).trans (hsame rel)⟩
    · obtain rfl := List.mem_singleton.1 hother
      rw [hl] at hk
      cases hk
      refine ⟨hapart, fun rel => ?_⟩
      rw [← Location.descend_descend, hgrafts.copied, hlays.apart hend,
        hc.elsewhere _ (hapart.descend_left rel).left]
  · by_cases hbelow : names <+: rel
    · exact ⟨names, hlast, hdirectory, .inl hbelow⟩
    by_cases hway : rel <+: names
    · rw [hlays.entry?_above hgrafts hbelow hway] at hrel
      exact ⟨names, hlast, hdirectory, .inr ⟨hway, (Option.some.inj hrel).symm⟩⟩
    · rw [hlays.entry?_beside hgrafts hbelow hway] at hrel
      obtain ⟨other, hother, hfound⟩ := hc.others rel e hrel
      exact ⟨other, List.mem_append_left _ hother, hfound⟩
  · obtain hother | hother := List.mem_append.1 hother
    · rw [hkept other hother] at hrel
      exact hc.usable other hother hotherdirectory rel hrel
    · obtain rfl := List.mem_singleton.1 hother
      rw [← Location.descend_descend] at hrel
      rw [← Path.descend_descend]
      exact hgrafts.usable rel hrel

end Copied

/-! ### All entries -/

/-- One more entry is asked for, and copied if it is a directory. -/
theorem Copied.step {s s' : Session} (hs : Shelf m holder h)
    (hc : Copied m s.files root (holder.child "rules") (h.child "rules") done)
    (hdone : ∀ names ∈ done, names ∈ selector.entries) (hnames : names ∈ selector.entries)
    (hnew : names ∉ done) (hrun : (vendorEntry root holder names).run.run s = (.ok (), s')) :
    Copied m s'.files root (holder.child "rules") (h.child "rules") (done ++ [names]) := by
  obtain ⟨hnot, hsame⟩ | ⟨⟨l, hl⟩, hcopied⟩ := vendorEntry_ok hrun
  · rw [hsame]
    refine hc.skip (Bool.eq_false_iff.2 fun hdirectory => ?_)
    rw [hc.isDirectory_mono hs hdirectory] at hnot
    cases hnot
  · have hsource := hc.stat_source hs hdone hnames hl
    have hldirectory := (stat_eq_ok_iff.1 hsource).2
    have hholder := FileTree.stat_mono (fun _ _ => hc.keeps hs) hs.holder
    have hempty := hc.entry?_of_notMem hdone hnames hnew
    rw [← Location.descend_cons] at hempty
    obtain ⟨hend, x, hlays, hgrafts⟩ :=
      FileTree.copyDirectory_grafts hc.tree hl hholder (LanguageSelector.up_notMem_copy hnames)
        hempty hcopied
    rw [Location.descend_cons] at hend hgrafts
    rw [Path.descend_cons] at hgrafts
    have hapart : Apart l (h.child "rules") := ⟨hs.not_isWithin hldirectory,
      Location.not_isWithin_of_isWithin hend.right (isWithin_descend (h.child "rules") names)⟩
    exact hc.of_grafts hnew hdone hnames hsource hapart hend
      (hlays.tail (stat_eq_ok_iff.1 hholder).2) hgrafts

/-- **All entries of a selection are copied**, each from what it was at the beginning. -/
theorem vendorEntries_copied {s s' : Session} {x : PUnit} (hs : Shelf s.files holder h)
    (hrun : (forIn selector.entriesSharedFirst PUnit.unit (fun names _ => do
        vendorEntry root holder names
        pure (ForInStep.yield PUnit.unit)) : Run VendorFault PUnit).run.run s = (.ok x, s')) :
    Copied s.files s'.files root (holder.child "rules") (h.child "rules")
      selector.entriesSharedFirst := by
  refine of_run_forIn_ok
    (P := fun done s' => Copied s.files s'.files root (holder.child "rules") (h.child "rules") done)
    (fun done names s₁ s₂ hsome hc hstep => ?_) (.nil hs) hrun
  have hmem {other : List String} (hother : other ∈ done ++ [names]) :
      other ∈ selector.entries :=
    LanguageSelector.mem_entriesSharedFirst.1 (hsome.subset hother)
  exact hc.step hs (fun other hother => hmem (List.mem_append_left _ hother))
    (hmem (List.mem_append_right _ (List.mem_singleton_self _)))
    (LanguageSelector.notMem_of_prefix hsome) hstep

end Rules

end LintReport
