import LintReport.Issue.Exclusion
import Mathlib.Data.Finset.Card
import Mathlib.Data.List.Basic
import Mathlib.Data.List.Dedup

/-!
# First Occurrences

Several parts of a run go over the distinct elements of a list, in the order in which they are first
met: the rules that are excluded, and the rules and files under which issues are grouped.

## Main results

* `mem_firstOccurrences`, `nodup_firstOccurrences`: no element is lost, and none is left twice.
* `firstOccurrences_pairwise`: distinct elements stand in the order of their first occurrences.
* `firstOccurrences_concat`: what one more element does to the first occurrences.
* `length_firstOccurrences`: there are as many as distinct elements.
-/

namespace LintReport

variable {α : Type} [BEq α] [LawfulBEq α]

/-- No element is lost, and none is made up. -/
theorem mem_firstOccurrences {a : α} {xs : List α} : a ∈ firstOccurrences xs ↔ a ∈ xs := by
  induction xs with
  | nil => rfl
  | cons x xs ih =>
    rw [firstOccurrences, List.mem_cons, List.mem_filter, ih, List.mem_cons]
    by_cases hx : a = x
    · simp [hx]
    · simp [hx]

/-- **Distinct elements stand in the order of their first occurrences.** -/
theorem firstOccurrences_pairwise (xs : List α) :
    (firstOccurrences xs).Pairwise fun a b => xs.idxOf a < xs.idxOf b := by
  induction xs with
  | nil => exact List.Pairwise.nil
  | cons x xs ih =>
    have hnext {b : α} (hb : b ∈ (firstOccurrences xs).filter fun b => !(b == x)) :
        (x :: xs).idxOf b = xs.idxOf b + 1 := by
      obtain ⟨-, hne⟩ := List.mem_filter.1 hb
      refine List.idxOf_cons_ne xs ?_
      rintro rfl
      simp at hne
    rw [firstOccurrences, List.pairwise_cons]
    constructor
    · intro b hb
      rw [hnext hb, List.idxOf_cons_self]
      exact Nat.succ_pos _
    · refine (ih.filter _).imp_of_mem fun ha hb hlt => ?_
      rw [hnext ha, hnext hb]
      exact Nat.succ_lt_succ hlt

/-- No element occurs twice among the first occurrences. -/
theorem nodup_firstOccurrences (xs : List α) : (firstOccurrences xs).Nodup :=
  (firstOccurrences_pairwise xs).imp fun h heq => by
    rw [heq] at h
    exact Nat.lt_irrefl _ h

/-- One more element stands at the end, unless it has occurred before. -/
theorem firstOccurrences_concat [DecidableEq α] (xs : List α) (x : α) :
    firstOccurrences (xs ++ [x]) =
      if x ∈ xs then firstOccurrences xs else firstOccurrences xs ++ [x] := by
  induction xs with
  | nil => rfl
  | cons y ys ih =>
    rw [List.cons_append, firstOccurrences, ih, firstOccurrences]
    by_cases hys : x ∈ ys
    · rw [if_pos hys, if_pos (List.mem_cons_of_mem y hys)]
    · rw [if_neg hys, List.filter_append]
      by_cases hxy : x = y
      · simp [hxy]
      · simp [hxy, hys]

/-- There are as many first occurrences as distinct elements. -/
theorem length_firstOccurrences [DecidableEq α] (xs : List α) :
    (firstOccurrences xs).length = xs.toFinset.card := by
  have hsame : (firstOccurrences xs).toFinset = xs.toFinset := by
    ext x
    rw [List.mem_toFinset, List.mem_toFinset, mem_firstOccurrences]
  rw [← hsame, List.toFinset_card_of_nodup (nodup_firstOccurrences xs)]

end LintReport
