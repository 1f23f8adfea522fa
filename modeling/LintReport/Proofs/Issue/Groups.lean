import LintReport.Issue.Tally
import LintReport.Proofs.Issue.FirstOccurrences
import Mathlib.Algebra.BigOperators.Group.List.Basic
import Mathlib.Algebra.GroupWithZero.Nat

/-!
# Groups of Items

Items are put into groups one after the other, so the groups of some items are those of all but the
last one, with the last one added. Read this way, the keys of the groups are the distinct keys in
the order of their first occurrences, and the group of a key holds exactly the items of that key.

## Main results

* `groupBy_eq`: **the groups are the first occurrences of the keys**, each with its items.
* `flatMap_groupBy_perm`: the groups lose no item; `sum_length_groupBy`: so their sizes sum up.
* `ranked_perm`: the order by size loses no group.
-/

namespace LintReport

/-! ### Groups -/

variable {α : Type} (key : α → String)

/-- An item is added at the end of the group of its key, or in a new group at the end. -/
theorem addToGroup_map (name : String) (item : α) (group : String → List α) {names : List String}
    (hnodup : names.Nodup) :
    addToGroup name item (names.map fun k => (k, group k)) =
      if name ∈ names then
        names.map fun k => (k, if k = name then group k ++ [item] else group k)
      else (names.map fun k => (k, group k)) ++ [(name, [item])] := by
  induction names with
  | nil => rfl
  | cons k rest ih =>
    obtain ⟨hk, hrest⟩ := List.nodup_cons.1 hnodup
    rw [List.map_cons, addToGroup]
    by_cases hname : k = name
    · -- no later group has this key, so none of them changes
      subst hname
      have hother : ∀ k' ∈ rest, (k', if k' = k then group k' ++ [item] else group k') =
          (k', group k') := by
        intro k' hk'
        rw [if_neg (ne_of_mem_of_not_mem hk' hk)]
      rw [if_pos (beq_self_eq_true k), if_pos List.mem_cons_self, List.map_cons, if_pos rfl,
        List.map_congr_left hother]
    · rw [if_neg (by simpa using hname), ih hrest]
      by_cases hmem : name ∈ rest
      · rw [if_pos hmem, if_pos (List.mem_cons_of_mem k hmem), List.map_cons, if_neg hname]
      · rw [if_neg hmem, if_neg (by simp [Ne.symm hname, hmem]), List.cons_append]

/-- The groups of one more item. -/
theorem groupBy_concat (items : List α) (item : α) :
    groupBy key (items ++ [item]) = addToGroup (key item) item (groupBy key items) := by
  rw [groupBy, List.foldl_append, List.foldl_cons, List.foldl_nil, groupBy]

/-- **The groups are the first occurrences of the keys**, and the group of a key holds the items of
that key in their own order. -/
theorem groupBy_eq (items : List α) :
    groupBy key items = (firstOccurrences (items.map key)).map fun k =>
      (k, items.filter fun item => key item == k) := by
  induction items using List.reverseRecOn with
  | nil => rfl
  | append_singleton items item ih =>
    have hgroup (k : String) : ((items ++ [item]).filter fun item => key item == k) =
        if k = key item then (items.filter fun item => key item == k) ++ [item]
        else items.filter fun item => key item == k := by
      rw [List.filter_append]
      by_cases hk : k = key item
      · simp [hk]
      · simp [hk, Ne.symm hk]
    rw [groupBy_concat, ih, addToGroup_map _ _ _ (nodup_firstOccurrences _), List.map_append,
      List.map_singleton, firstOccurrences_concat]
    simp only [hgroup]
    by_cases hmem : key item ∈ items.map key
    · rw [if_pos (mem_firstOccurrences.2 hmem), if_pos hmem]
    · -- a key that is new has no items yet, and no other group changes
      have hkeys : key item ∉ firstOccurrences (items.map key) :=
        fun h => hmem (mem_firstOccurrences.1 h)
      have hnone : (items.filter fun item' => key item' == key item) = [] := by
        rw [List.filter_eq_nil_iff]
        intro item' hitem' heq
        exact hmem (List.mem_map.2 ⟨item', hitem', eq_of_beq heq⟩)
      have hother : ∀ k ∈ firstOccurrences (items.map key),
          (k, if k = key item then (items.filter fun item => key item == k) ++ [item]
            else items.filter fun item => key item == k) =
          (k, items.filter fun item => key item == k) := by
        intro k hk
        rw [if_neg (ne_of_mem_of_not_mem hk hkeys)]
      rw [if_neg hkeys, if_neg hmem, List.map_append, List.map_congr_left hother, List.map_singleton,
        if_pos rfl, hnone, List.nil_append]

/-- There are as many groups as distinct keys. -/
theorem length_groupBy (items : List α) :
    (groupBy key items).length = (items.map key).toFinset.card := by
  rw [groupBy_eq, List.length_map, length_firstOccurrences]

/-- The keys of the groups are the distinct keys of the items. -/
theorem map_fst_groupBy (items : List α) :
    (groupBy key items).map (·.1) = firstOccurrences (items.map key) := by
  rw [groupBy_eq, List.map_map]
  exact List.map_id _

/-- An item that is added is among the items of the groups. -/
theorem flatMap_addToGroup_perm (name : String) (item : α) (groups : List (String × List α)) :
    ((addToGroup name item groups).flatMap (·.2)).Perm (groups.flatMap (·.2) ++ [item]) := by
  induction groups with
  | nil => exact List.Perm.refl _
  | cons g rest ih =>
    rw [addToGroup]
    split
    · rw [List.flatMap_cons, List.flatMap_cons, List.append_assoc, List.append_assoc]
      exact List.perm_append_comm.append_left g.2
    · rw [List.flatMap_cons, List.flatMap_cons, List.append_assoc]
      exact ih.append_left g.2

/-- **No item is lost, and none is made up**: the groups one after the other are the items. -/
theorem flatMap_groupBy_perm (items : List α) :
    ((groupBy key items).flatMap (·.2)).Perm items := by
  induction items using List.reverseRecOn with
  | nil => exact List.Perm.refl _
  | append_singleton items item ih =>
    rw [groupBy_concat]
    exact (flatMap_addToGroup_perm _ item _).trans (ih.append_right [item])

/-- **Every item is in exactly one group**: the sizes of the groups sum to the number of items. -/
theorem sum_length_groupBy (items : List α) :
    ((groupBy key items).map fun g => g.2.length).sum = items.length := by
  rw [← List.length_flatMap, (flatMap_groupBy_perm key items).length_eq]

/-- The order by size loses no group and makes none up. -/
theorem ranked_perm (groups : List (String × List α)) : (ranked groups).Perm groups :=
  List.mergeSort_perm groups _

end LintReport
