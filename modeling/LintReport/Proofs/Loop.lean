import Mathlib.Data.List.Forall2
import Mathlib.Tactic.Common

/-!
# Loops that a Fault Ends

A loop over a list gives the results of its steps one by one, unless a step ends in a fault; then
the first such step decides what the loop ends with. Elements are chosen from a list if the question
is answered for each of them.

## Main results

* `mapM_eq_ok_iff`, `mapM_eq_error_iff`: **what a loop gives, and what it ends with**.
* `mem_of_mapM`, `exists_mapM_iff`: its results as a set, and when there are any.
* `mapM_of_forall`: a loop whose steps give the results of another one.
* `mapM_eq_some_iff`, `mem_of_mapM_eq_some`, `mapM_eq_none_iff`: the same of steps that may have no
  result.
* `filterM_of_forall`, `mem_filterM_iff`, `exists_filterM_iff`: which elements are chosen, and when.
-/

namespace LintReport

variable {ε α β : Type}

/-! ### Steps with results -/

/-- The results of a list are those of its elements, one by one. -/
theorem mapM_eq_ok_iff {f : α → Except ε β} {xs : List α} {ys : List β} :
    xs.mapM f = .ok ys ↔ List.Forall₂ (fun x y => f x = .ok y) xs ys := by
  induction xs generalizing ys with
  | nil =>
    rw [List.forall₂_nil_left_iff]
    exact ⟨fun h => (Except.ok.inj h).symm, fun h => h ▸ rfl⟩
  | cons x xs ih =>
    rw [List.forall₂_cons_left_iff, List.mapM_cons]
    constructor
    · intro h
      cases hx : f x with
      | error fault =>
        rw [hx] at h
        cases h
      | ok y =>
        cases hxs : xs.mapM f with
        | error fault =>
          rw [hx, hxs] at h
          cases h
        | ok rest =>
          rw [hx, hxs] at h
          exact ⟨y, rest, rfl, ih.1 hxs, (Except.ok.inj h).symm⟩
    · rintro ⟨y, rest, hx, hxs, rfl⟩
      rw [hx, ih.2 hxs]
      rfl

/-- **What a loop gives** are the results of its steps. -/
theorem mem_of_mapM {f : α → Except ε β} {xs : List α} {ys : List β} (h : xs.mapM f = .ok ys)
    {y : β} : y ∈ ys ↔ ∃ x ∈ xs, f x = .ok y := by
  have hsteps := mapM_eq_ok_iff.1 h
  clear h
  induction hsteps with
  | nil => simp
  | cons hx _ ih => simp [hx, ih, eq_comm]

/-- A loop gives results just if each of its steps does. -/
theorem exists_mapM_iff {f : α → Except ε β} {xs : List α} :
    (∃ ys, xs.mapM f = .ok ys) ↔ ∀ x ∈ xs, ∃ y, f x = .ok y := by
  simp only [mapM_eq_ok_iff]
  induction xs with
  | nil => simp
  | cons x xs ih =>
    rw [List.forall_mem_cons, ← ih]
    constructor
    · rintro ⟨ys, hsteps⟩
      obtain ⟨y, rest, hx, hrest, rfl⟩ := List.forall₂_cons_left_iff.1 hsteps
      exact ⟨⟨y, hx⟩, rest, hrest⟩
    · rintro ⟨⟨y, hx⟩, rest, hrest⟩
      exact ⟨y :: rest, .cons hx hrest⟩

/-- A loop whose steps give the results of another one gives its result. -/
theorem mapM_of_forall {f g : α → Except ε β} {xs : List α} {ys : List β}
    (h : ∀ x ∈ xs, ∀ y, f x = .ok y → g x = .ok y) (hf : xs.mapM f = .ok ys) :
    xs.mapM g = .ok ys := by
  induction xs generalizing ys with
  | nil => exact hf
  | cons x xs ih =>
    rw [List.forall_mem_cons] at h
    rw [List.mapM_cons] at hf ⊢
    cases hx : f x with
    | error e =>
      rw [hx] at hf
      cases hf
    | ok y =>
      cases hxs : xs.mapM f with
      | error e =>
        rw [hx, hxs] at hf
        cases hf
      | ok rest =>
        rw [hx, hxs] at hf
        rw [h.1 y hx, ih h.2 hxs]
        exact hf

/-! ### Steps without results -/

/-- The results of a list are those of its elements, where each has one. -/
theorem mapM_eq_some_iff {f : α → Option β} {xs : List α} {ys : List β} :
    xs.mapM f = some ys ↔ List.Forall₂ (fun x y => f x = some y) xs ys := by
  induction xs generalizing ys with
  | nil =>
    rw [List.forall₂_nil_left_iff]
    exact ⟨fun h => (Option.some.inj h).symm, fun h => h ▸ rfl⟩
  | cons x xs ih =>
    rw [List.forall₂_cons_left_iff, List.mapM_cons]
    simp only [Option.bind_eq_bind, Option.bind_eq_some_iff, Option.pure_def, Option.some.injEq, ih]
    constructor
    · rintro ⟨y, hx, rest, hrest, rfl⟩
      exact ⟨y, rest, hx, hrest, rfl⟩
    · rintro ⟨y, rest, hx, hrest, rfl⟩
      exact ⟨y, hx, rest, hrest, rfl⟩

/-- What a loop gives are the results of its steps. -/
theorem mem_of_mapM_eq_some {f : α → Option β} {xs : List α} {ys : List β}
    (h : xs.mapM f = some ys) {y : β} (hy : y ∈ ys) : ∃ x ∈ xs, f x = some y := by
  have hsteps := mapM_eq_some_iff.1 h
  clear h
  induction hsteps with
  | nil => cases hy
  | cons hx _ ih =>
    rcases List.mem_cons.1 hy with rfl | hy
    · exact ⟨_, List.mem_cons_self, hx⟩
    · obtain ⟨x, hmem, hx⟩ := ih hy
      exact ⟨x, List.mem_cons_of_mem _ hmem, hx⟩

/-- Loops whose steps have the same results one by one have the same results. -/
theorem mapM_eq_of_forall₂ {γ : Type} {f : α → Option β} {g : γ → Option β} {xs : List α}
    {ys : List γ} (h : List.Forall₂ (fun x y => f x = g y) xs ys) : xs.mapM f = ys.mapM g := by
  induction h with
  | nil => rfl
  | cons hxy _ ih => rw [List.mapM_cons, List.mapM_cons, hxy, ih]

/-- What is wrapped around the results of a loop can be taken off again. -/
theorem mapM_map_wrapped {γ : Type} {f : α → Option β} (wrap : α → β → γ) (unwrap : γ → β)
    (h : ∀ x y, unwrap (wrap x y) = y) (xs : List α) :
    (xs.mapM fun x => (f x).map (wrap x)).map (List.map unwrap) = xs.mapM f := by
  induction xs with
  | nil => rfl
  | cons x xs ih =>
    rw [List.mapM_cons, List.mapM_cons, ← ih]
    cases f x with
    | none => rfl
    | some y => cases xs.mapM fun x => (f x).map (wrap x) <;> simp [h]

/-- There are none just if an element has none. -/
theorem mapM_eq_none_iff {f : α → Option β} {xs : List α} :
    xs.mapM f = none ↔ ∃ x ∈ xs, f x = none := by
  induction xs with
  | nil => simp
  | cons x xs ih =>
    rw [List.mapM_cons, List.exists_mem_cons_iff, ← ih]
    cases f x with
    | none => simp
    | some y => cases xs.mapM f <;> simp

/-! ### The first fault -/

/-- **A loop ends with the fault of its first step that has one.** -/
theorem mapM_eq_error_iff {f : α → Except ε β} {xs : List α} {e : ε} :
    xs.mapM f = .error e ↔ ∃ before x after, xs = before ++ x :: after ∧
      (∀ y ∈ before, ∃ b, f y = .ok b) ∧ f x = .error e := by
  induction xs with
  | nil =>
    constructor
    · nofun
    · rintro ⟨before, x, after, hxs, -⟩
      exact absurd hxs (by simp)
  | cons x xs ih =>
    rw [List.mapM_cons]
    cases hx : f x with
    | error e' =>
      constructor
      · intro h
        cases h
        exact ⟨[], x, xs, rfl, nofun, hx⟩
      · rintro ⟨before, y, after, hxs, hbefore, hy⟩
        cases before with
        | nil =>
          obtain ⟨rfl, -⟩ := List.cons.inj hxs
          obtain rfl := Except.error.inj (hx.symm.trans hy)
          rfl
        | cons z before =>
          obtain ⟨rfl, -⟩ := List.cons.inj hxs
          obtain ⟨b, hb⟩ := hbefore x List.mem_cons_self
          cases hx.symm.trans hb
    | ok b =>
      have hrest : (do let rest ← xs.mapM f; pure (b :: rest)) = (.error e : Except ε (List β)) ↔
          xs.mapM f = .error e := by
        cases xs.mapM f <;> simp [bind, Except.bind, pure, Except.pure]
      refine hrest.trans (ih.trans ⟨?_, ?_⟩)
      · rintro ⟨before, y, after, rfl, hbefore, hy⟩
        exact ⟨x :: before, y, after, rfl, List.forall_mem_cons.2 ⟨⟨b, hx⟩, hbefore⟩, hy⟩
      · rintro ⟨before, y, after, hxs, hbefore, hy⟩
        cases before with
        | nil =>
          obtain ⟨rfl, -⟩ := List.cons.inj hxs
          cases hx.symm.trans hy
        | cons z before =>
          obtain ⟨rfl, rfl⟩ := List.cons.inj hxs
          exact ⟨before, y, after, rfl, (List.forall_mem_cons.1 hbefore).2, hy⟩

/-! ### Choosing -/

/-- Elements are chosen by answers that are all given. -/
theorem filterM_of_forall {p : α → Except ε Bool} {q : α → Bool} {xs : List α}
    (h : ∀ x ∈ xs, p x = .ok (q x)) : xs.filterM p = .ok (xs.filter q) := by
  have haux (chosen : List α) :
      xs.filterAuxM p chosen = .ok ((xs.filter q).reverse ++ chosen) := by
    induction xs generalizing chosen with
    | nil => rfl
    | cons x xs ih =>
      rw [List.forall_mem_cons] at h
      rw [List.filterAuxM, h.1]
      dsimp only [bind, Except.bind]
      rw [ih h.2, List.filter_cons]
      cases q x <;> simp
  rw [List.filterM, haux]
  simp [bind, Except.bind, pure, Except.pure]

/-- Elements are not chosen unless all answers are given. -/
theorem exists_of_filterAuxM {p : α → Except ε Bool} {xs chosen ys : List α}
    (h : xs.filterAuxM p chosen = .ok ys) : ∀ x ∈ xs, ∃ b, p x = .ok b := by
  induction xs generalizing chosen with
  | nil => exact nofun
  | cons x xs ih =>
    rw [List.filterAuxM] at h
    cases hx : p x with
    | error e =>
      rw [hx] at h
      cases h
    | ok b =>
      rw [hx] at h
      exact List.forall_mem_cons.2 ⟨⟨b, hx⟩, ih h⟩

theorem exists_of_filterM {p : α → Except ε Bool} {xs ys : List α} (h : xs.filterM p = .ok ys) :
    ∀ x ∈ xs, ∃ b, p x = .ok b := by
  rw [List.filterM] at h
  cases haux : xs.filterAuxM p [] with
  | error e =>
    rw [haux] at h
    cases h
  | ok chosen => exact exists_of_filterAuxM haux

/-- The elements that are chosen are those for which the answer is yes. -/
theorem mem_filterM_iff {p : α → Except ε Bool} {xs ys : List α} (h : xs.filterM p = .ok ys)
    {x : α} : x ∈ ys ↔ x ∈ xs ∧ p x = .ok true := by
  have hall := exists_of_filterM h
  have hanswers (y : α) (hy : y ∈ xs) : p y = .ok ((p y).toOption.getD false) := by
    obtain ⟨b, hb⟩ := hall y hy
    rw [hb]
    rfl
  rw [filterM_of_forall hanswers] at h
  obtain rfl := Except.ok.inj h
  rw [List.mem_filter]
  refine and_congr_right fun hx => ?_
  obtain ⟨b, hb⟩ := hall x hx
  simp [hb, Except.toOption]

/-- Where no elements are chosen, an answer is missing. -/
theorem exists_of_filterM_eq_error {p : α → Except ε Bool} {xs : List α} {e : ε}
    (h : xs.filterM p = .error e) : ∃ x ∈ xs, p x = .error e := by
  have haux (chosen : List α) : xs.filterAuxM p chosen = .error e → ∃ x ∈ xs, p x = .error e := by
    clear h
    induction xs generalizing chosen with
    | nil => nofun
    | cons x xs ih =>
      intro h
      rw [List.filterAuxM] at h
      cases hx : p x with
      | error e' =>
        rw [hx] at h
        cases h
        exact ⟨x, List.mem_cons_self, hx⟩
      | ok b =>
        rw [hx] at h
        obtain ⟨y, hy, hfault⟩ := ih _ h
        exact ⟨y, List.mem_cons_of_mem x hy, hfault⟩
  rw [List.filterM] at h
  cases hchosen : xs.filterAuxM p [] with
  | error e' =>
    rw [hchosen] at h
    cases h
    exact haux [] hchosen
  | ok chosen =>
    rw [hchosen] at h
    cases h

/-- Elements are chosen just if all answers are given. -/
theorem exists_filterM_iff {p : α → Except ε Bool} {xs : List α} :
    (∃ ys, xs.filterM p = .ok ys) ↔ ∀ x ∈ xs, ∃ b, p x = .ok b := by
  constructor
  · rintro ⟨ys, h⟩
    exact exists_of_filterM h
  · intro hall
    cases h : xs.filterM p with
    | ok ys => exact ⟨ys, rfl⟩
    | error e =>
      obtain ⟨x, hx, hfault⟩ := exists_of_filterM_eq_error h
      obtain ⟨b, hb⟩ := hall x hx
      cases hb.symm.trans hfault

end LintReport
