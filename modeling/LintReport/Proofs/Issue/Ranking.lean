import LintReport.Proofs.Issue.Groups

/-!
# The Order of Groups

Groups are sorted by decreasing size. The sort is stable, so the groups of one size keep the order
in which their keys were met, and the order of all groups is one that can be told from the items
alone: a larger group comes first, and of two groups of one size the one that was met first. No two
groups are alike in this order, so it leaves no choice: items with the same groups that are met in
the same order are ranked in the same way.

## Main definitions

* `Ranks`: whether the group of one key comes before the group of another.
* `rankedKeys`: the keys of the groups in their order.
* `Leads`: whether some keys are those of the first groups, in their order.
* `Interleaves`: whether items are others with the items of different keys moved against each other.

## Main results

* `filter_ranked`: **the sort is stable**.
* `rankedKeys_pairwise`: groups stand in the order that their sizes and their first items tell.
* `take_rankedKeys_leads`: a cut leaves the groups that come first.
* `Interleaves.ranked_eq`: the order does not depend on how the groups are interleaved.
-/

namespace LintReport

variable {α : Type}

/-! ### Stability -/

/-- Of three groups the first is no smaller than the last if none is smaller than the next. -/
theorem noSmaller_trans (a b c : String × List α) (hab : decide (b.2.length ≤ a.2.length) = true)
    (hbc : decide (c.2.length ≤ b.2.length) = true) :
    decide (c.2.length ≤ a.2.length) = true := by
  rw [decide_eq_true_eq] at *
  exact Nat.le_trans hbc hab

/-- One of two groups is no smaller than the other. -/
theorem noSmaller_total (a b : String × List α) :
    (decide (b.2.length ≤ a.2.length) || decide (a.2.length ≤ b.2.length)) = true := by
  rw [Bool.or_eq_true, decide_eq_true_eq, decide_eq_true_eq]
  exact Nat.le_total _ _

/-- **The sort is stable**: the groups of one size stand as they did. -/
theorem filter_ranked (size : Nat) (groups : List (String × List α)) :
    (ranked groups).filter (fun g => g.2.length == size) =
      groups.filter fun g => g.2.length == size := by
  have hsize {g : String × List α} (hg : g ∈ groups.filter fun g => g.2.length == size) :
      g.2.length = size := by
    simpa using (List.mem_filter.1 hg).2
  have hsame : (groups.filter fun g => g.2.length == size).Pairwise
      fun a b => decide (b.2.length ≤ a.2.length) = true := by
    refine List.pairwise_of_forall_mem_list fun a ha b hb => ?_
    rw [hsize ha, hsize hb]
    simp
  have hsorted : (groups.filter fun g => g.2.length == size).Sublist (ranked groups) :=
    List.sublist_mergeSort noSmaller_trans noSmaller_total hsame List.filter_sublist
  have hkept := hsorted.filter fun g => g.2.length == size
  rw [List.filter_filter] at hkept
  simp only [Bool.and_self] at hkept
  exact (hkept.eq_of_length_le (((ranked_perm groups).filter _).length_eq.le)).symm

/-- Groups stand by decreasing size, and those of one size as they did. -/
theorem ranked_pairwise {R : String × List α → String × List α → Prop}
    {groups : List (String × List α)} (h : groups.Pairwise R) :
    (ranked groups).Pairwise fun a b =>
      b.2.length < a.2.length ∨ b.2.length = a.2.length ∧ R a b := by
  have hsizes : (ranked groups).Pairwise
      fun a b => decide (b.2.length ≤ a.2.length) = true :=
    List.pairwise_mergeSort noSmaller_trans noSmaller_total groups
  rw [List.pairwise_iff_forall_sublist] at hsizes h ⊢
  intro a b hab
  rcases Nat.lt_or_eq_of_le (of_decide_eq_true (hsizes hab)) with hlt | heq
  · exact .inl hlt
  · -- both are among the groups of one size
    have hpair := hab.filter fun g => g.2.length == a.2.length
    rw [filter_ranked, List.filter_cons_of_pos (by simp), List.filter_cons_of_pos (by simp [heq]),
      List.filter_nil] at hpair
    exact .inr ⟨heq, h (hpair.trans List.filter_sublist)⟩

/-! ### Groups of a ranking -/

section Groups

variable {key : α → String} {items : List α} {group : String × List α}

/-- A group holds the items of a key that some item has. -/
theorem eq_of_mem_ranked (h : group ∈ ranked (groupBy key items)) :
    group.1 ∈ items.map key ∧ group.2 = items.filter fun item => key item == group.1 := by
  rw [(ranked_perm _).mem_iff, groupBy_eq] at h
  obtain ⟨k, hk, rfl⟩ := List.mem_map.1 h
  exact ⟨mem_firstOccurrences.1 hk, rfl⟩

/-- The keys of items are those whose group would hold something. -/
theorem mem_map_key_iff {name : String} :
    name ∈ items.map key ↔ (items.filter fun item => key item == name) ≠ [] := by
  simp [List.filter_eq_nil_iff]

/-- No group is empty. -/
theorem ne_nil_of_mem_ranked (h : group ∈ ranked (groupBy key items)) : group.2 ≠ [] := by
  obtain ⟨hkey, hitems⟩ := eq_of_mem_ranked h
  rw [hitems]
  exact mem_map_key_iff.1 hkey

/-- The names of the groups are the distinct keys. -/
theorem names_ranked_perm (key : α → String) (items : List α) :
    ((ranked (groupBy key items)).map (·.1)).Perm (firstOccurrences (items.map key)) := by
  rw [← map_fst_groupBy]
  exact (ranked_perm _).map _

/-- There are as many groups as distinct keys. -/
theorem length_ranked (key : α → String) (items : List α) :
    (ranked (groupBy key items)).length = (items.map key).toFinset.card := by
  rw [(ranked_perm _).length_eq, length_groupBy]

end Groups

/-! ### Keys in their order -/

section Keys

variable (key : α → String) (items : List α)

/-- How many items have a key. -/
def groupSize (name : String) : Nat := (items.filter fun item => key item == name).length

/-- Whether the group of a key comes before that of another: it is larger, or it is as large and was
met first. -/
def Ranks (a b : String) : Prop :=
  groupSize key items b < groupSize key items a ∨
    groupSize key items b = groupSize key items a ∧
      (items.map key).idxOf a < (items.map key).idxOf b

/-- The keys of the groups in their order. -/
def rankedKeys : List String := (ranked (groupBy key items)).map (·.1)

/-- **Whether some keys lead all keys**: they are distinct and in their order, and every key that is
not among them comes after all of them. -/
structure Leads (names : List String) : Prop where
  nodup : names.Nodup
  subset : ∀ name ∈ names, name ∈ items.map key
  ordered : names.Pairwise (Ranks key items)
  ahead : ∀ other ∈ items.map key, other ∉ names → ∀ name ∈ names, Ranks key items name other

variable {key items}

/-- Of two groups one comes first. -/
theorem Ranks.asymm {a b : String} (h : Ranks key items a b) : ¬ Ranks key items b a := by
  rw [Ranks] at *
  omega

/-- The groups in their order are those of the keys in their order. -/
theorem ranked_groupBy_eq (key : α → String) (items : List α) : ranked (groupBy key items) =
    (rankedKeys key items).map fun name => (name, items.filter fun item => key item == name) := by
  rw [rankedKeys, List.map_map]
  refine (List.map_id _).symm.trans (List.map_congr_left fun group hgroup => ?_)
  exact Prod.ext rfl (eq_of_mem_ranked hgroup).2

/-- The keys of the groups are the keys of the items. -/
theorem mem_rankedKeys {name : String} : name ∈ rankedKeys key items ↔ name ∈ items.map key :=
  (names_ranked_perm key items).mem_iff.trans mem_firstOccurrences

/-- No key has two groups. -/
theorem nodup_rankedKeys (key : α → String) (items : List α) : (rankedKeys key items).Nodup :=
  (names_ranked_perm key items).nodup_iff.2 (nodup_firstOccurrences _)

/-- No distinct key is missing. -/
theorem length_rankedKeys (key : α → String) (items : List α) :
    (rankedKeys key items).length = (items.map key).toFinset.card := by
  rw [rankedKeys, List.length_map, length_ranked]

/-- **Groups stand in the order that their sizes and their first items tell.** -/
theorem rankedKeys_pairwise (key : α → String) (items : List α) :
    (rankedKeys key items).Pairwise (Ranks key items) := by
  have hgroups : (groupBy key items).Pairwise
      fun a b => (items.map key).idxOf a.1 < (items.map key).idxOf b.1 := by
    rw [groupBy_eq, List.pairwise_map]
    exact firstOccurrences_pairwise _
  rw [rankedKeys, List.pairwise_map]
  refine (ranked_pairwise hgroups).imp_of_mem fun ha hb h => ?_
  rwa [Ranks, groupSize, groupSize, ← (eq_of_mem_ranked ha).2, ← (eq_of_mem_ranked hb).2]

/-- **A cut leaves the groups that come first.** -/
theorem take_rankedKeys_leads (key : α → String) (items : List α) (limit : Nat) :
    Leads key items ((rankedKeys key items).take limit) where
  nodup := (nodup_rankedKeys key items).sublist (List.take_sublist _ _)
  subset := fun _ h => mem_rankedKeys.1 (List.mem_of_mem_take h)
  ordered := (rankedKeys_pairwise key items).sublist (List.take_sublist _ _)
  ahead := fun other hother hcut name hname => by
    have hall := rankedKeys_pairwise key items
    rw [← List.take_append_drop limit (rankedKeys key items), List.pairwise_append] at hall
    have hmem := mem_rankedKeys.2 hother
    rw [← List.take_append_drop limit (rankedKeys key items), List.mem_append] at hmem
    exact hall.2.2 name hname other (hmem.resolve_left hcut)

/-- All keys lead all keys. -/
theorem rankedKeys_leads (key : α → String) (items : List α) :
    Leads key items (rankedKeys key items) := by
  have h := take_rankedKeys_leads key items (rankedKeys key items).length
  rwa [List.take_length] at h

end Keys

/-! ### Interleavings -/

/-- **Whether items are others with the items of different keys moved against each other**: the
items of each key stand as they did, and keys are met in the same order. -/
structure Interleaves (key : α → String) (items items' : List α) : Prop where
  within : ∀ name, (items'.filter fun item => key item == name) =
    items.filter fun item => key item == name
  met : ∀ a ∈ items.map key, ∀ b ∈ items.map key,
    (items.map key).idxOf a < (items.map key).idxOf b →
      (items'.map key).idxOf a < (items'.map key).idxOf b

namespace Interleaves

variable {key : α → String} {items items' : List α} (h : Interleaves key items items')

include h

/-- The keys are the same. -/
theorem mem_map_iff (name : String) : name ∈ items'.map key ↔ name ∈ items.map key := by
  rw [mem_map_key_iff, mem_map_key_iff, h.within]

/-- Keys have the same order. -/
theorem rankedKeys_eq : rankedKeys key items' = rankedKeys key items := by
  have hperm : (rankedKeys key items).Perm (rankedKeys key items') := by
    rw [List.perm_ext_iff_of_nodup (nodup_rankedKeys _ _) (nodup_rankedKeys _ _)]
    intro name
    rw [mem_rankedKeys, mem_rankedKeys, h.mem_map_iff]
  have hordered : (rankedKeys key items).Pairwise (Ranks key items') := by
    refine (rankedKeys_pairwise key items).imp_of_mem fun {a b} ha hb hranks => ?_
    rw [Ranks, groupSize, groupSize, h.within, h.within]
    exact hranks.imp_right fun ⟨hsize, hmet⟩ =>
      ⟨hsize, h.met a (mem_rankedKeys.1 ha) b (mem_rankedKeys.1 hb) hmet⟩
  exact (hperm.eq_of_pairwise (fun _ _ _ _ hab hba => absurd hba hab.asymm) hordered
    (rankedKeys_pairwise key items')).symm

/-- **The order does not depend on how the groups are interleaved**, and the groups do not. -/
theorem ranked_eq : ranked (groupBy key items') = ranked (groupBy key items) := by
  rw [ranked_groupBy_eq, ranked_groupBy_eq key items, h.rankedKeys_eq]
  exact List.map_congr_left fun name _ => by rw [h.within]

end Interleaves

end LintReport
