import LintReport.Proofs.Issue.Groups

/-!
# Groups as a Partition

The groups of some items, one after the other, are the items again, only moved: what was apart and
has one key now stands together. Grouped once more, they give the same groups, since items of a key
that has not been met yet become a group of their own at the end.

## Main results

* `groupBy_append_group`: items of a new key become the last group.
* `groupBy_flatMap`: **what stands in groups is grouped as it stands**.
* `groupBy_partitions`: groups are a stable partition of the items.
-/

namespace LintReport

variable {α : Type} (key : α → String)

/-- An item passes the groups of other keys. -/
theorem addToGroup_append {name : String} (item : α) {groups : List (String × List α)}
    (hother : name ∉ groups.map (·.1)) (rest : List (String × List α)) :
    addToGroup name item (groups ++ rest) = groups ++ addToGroup name item rest := by
  induction groups with
  | nil => rfl
  | cons g groups ih =>
    rw [List.map_cons, List.mem_cons, not_or] at hother
    rw [List.cons_append, addToGroup, if_neg (by simpa using Ne.symm hother.1), ih hother.2,
      List.cons_append]

/-- Items of a key that has not been met yet become the last group. -/
theorem groupBy_append_group {items group : List α} {name : String}
    (hnew : name ∉ items.map key) (hgroup : ∀ item ∈ group, key item = name) (hne : group ≠ []) :
    groupBy key (items ++ group) = groupBy key items ++ [(name, group)] := by
  have hother : name ∉ (groupBy key items).map (·.1) := by
    rwa [map_fst_groupBy, mem_firstOccurrences]
  induction group using List.reverseRecOn with
  | nil => exact absurd rfl hne
  | append_singleton front last ih =>
    rw [List.forall_mem_append, List.forall_mem_singleton] at hgroup
    rw [← List.append_assoc, groupBy_concat, hgroup.2]
    by_cases hfront : front = []
    · -- the first item of the key starts the group, and the others join it
      have hstarts := addToGroup_append last hother []
      rw [List.append_nil] at hstarts
      rw [hfront, List.append_nil, List.nil_append, hstarts, addToGroup]
    · rw [ih hgroup.1 hfront, addToGroup_append last hother, addToGroup, if_pos (beq_self_eq_true _)]

/-- **What stands in groups is grouped as it stands.** -/
theorem groupBy_flatMap (group : String → List α) {names : List String} (hnodup : names.Nodup)
    (hne : ∀ name ∈ names, group name ≠ [])
    (hgroup : ∀ name ∈ names, ∀ item ∈ group name, key item = name) :
    groupBy key (names.flatMap group) = names.map fun name => (name, group name) := by
  induction names using List.reverseRecOn with
  | nil => rfl
  | append_singleton names name ih =>
    obtain ⟨hnames, -, hdisjoint⟩ := List.nodup_append.1 hnodup
    rw [List.forall_mem_append, List.forall_mem_singleton] at hne hgroup
    have hnew : name ∉ (names.flatMap group).map key := by
      intro hmem
      obtain ⟨item, hitem, hkey⟩ := List.mem_map.1 hmem
      obtain ⟨other, hother, hitem⟩ := List.mem_flatMap.1 hitem
      exact hdisjoint other hother name (List.mem_singleton_self name)
        ((hgroup.1 other hother item hitem).symm.trans hkey)
    rw [List.flatMap_append, List.flatMap_singleton, groupBy_append_group key hnew hgroup.2 hne.2,
      ih hnames hne.1 hgroup.1, List.map_append, List.map_singleton]

/-- **Groups are a stable partition of the items.** For every list of items and every key function:

* the keys of the groups are the keys of the items, each once, in the order in which they are first
  met;
* the group of a key holds exactly the items of that key, in their order, and is not empty;
* the groups one after the other are the items in another order;
* grouped once more, these give the same groups in the same order. -/
theorem groupBy_partitions (items : List α) :
    let groups := groupBy key items
    let names := groups.map (·.1)
    names.Nodup ∧ (∀ name, name ∈ names ↔ ∃ item ∈ items, key item = name) ∧
    (names.Pairwise fun a b => (items.map key).idxOf a < (items.map key).idxOf b) ∧
    (∀ group ∈ groups, group.2 = items.filter (fun item => key item == group.1) ∧
      group.2 ≠ []) ∧
    (groups.flatMap (·.2)).Perm items ∧
    groupBy key (groups.flatMap (·.2)) = groups := by
  intro groups names
  have hnames : names = firstOccurrences (items.map key) := map_fst_groupBy key items
  have hne : ∀ name ∈ firstOccurrences (items.map key),
      (items.filter fun item => key item == name) ≠ [] := by
    intro name hname
    obtain ⟨item, hitem, hkey⟩ := List.mem_map.1 (mem_firstOccurrences.1 hname)
    exact List.ne_nil_of_mem (List.mem_filter.2 ⟨hitem, beq_iff_eq.2 hkey⟩)
  have hgroups : groups = (firstOccurrences (items.map key)).map fun name =>
      (name, items.filter fun item => key item == name) := groupBy_eq key items
  refine ⟨?_, fun name => ?_, ?_, fun group hgroup => ?_, flatMap_groupBy_perm key items, ?_⟩
  · rw [hnames]
    exact nodup_firstOccurrences _
  · rw [hnames, mem_firstOccurrences, List.mem_map]
  · rw [hnames]
    exact firstOccurrences_pairwise _
  · rw [hgroups] at hgroup
    obtain ⟨name, hname, rfl⟩ := List.mem_map.1 hgroup
    exact ⟨rfl, hne name hname⟩
  · rw [hgroups, List.flatMap_map]
    exact groupBy_flatMap key _ (nodup_firstOccurrences _) hne fun name _ item hitem =>
      beq_iff_eq.1 (List.mem_filter.1 hitem).2

end LintReport
