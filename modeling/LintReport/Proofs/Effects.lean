/-!
# Runs with a State and a Fault

Runs of the program and talks to the code host are of one kind: they change a state and may end in a
fault. A sequence of them is followed from one part to the next, on either way out of each part.

## Main results

* `run_bind_ok`, `run_bind_error`: a sequence goes on with a result and ends with a fault.
* `run_bind_snd`: a second part that changes nothing.
* `exists_of_run_bind_ok`, `run_bind_eq_error`: what the parts of a sequence did.
* `run_tryFinally`: what is done at the end is done on either way out.
* `run_forIn`: a loop of steps that cannot fail folds what the steps do.
* `of_run_forIn_ok`: what the steps of a loop keep holds after it.
* `exists_of_run_mapM_cons_ok`, `of_run_mapM_error`: what the steps of a loop did.
* `of_run_bind`, `of_run_mapM`, `of_run_forIn`: what parts and steps keep on either way out, a
  sequence and a loop keep on either way out.
* `run_mapM_of_forall`, `exists_run_forIn_of_forall`: a loop of steps that all succeed.
-/

namespace LintReport

variable {ε σ α β : Type}

/-- A sequence goes on with the result of its first part. -/
theorem run_bind_ok {x : ExceptT ε (StateM σ) α} {f : α → ExceptT ε (StateM σ) β} {s s' : σ}
    {a : α} (h : x.run.run s = (.ok a, s')) : (x >>= f).run.run s = (f a).run.run s' := by
  change (match x.run.run s with | (a, s) => (ExceptT.bindCont f a).run s) = _
  rw [h]
  rfl

/-- A sequence ends where its first part fails. -/
theorem run_bind_error {x : ExceptT ε (StateM σ) α} {f : α → ExceptT ε (StateM σ) β} {s s' : σ}
    {e : ε} (h : x.run.run s = (.error e, s')) : (x >>= f).run.run s = (.error e, s') := by
  change (match x.run.run s with | (a, s) => (ExceptT.bindCont f a).run s) = _
  rw [h]
  rfl

/-- A sequence that gives a result has one from each of its parts. -/
theorem exists_of_run_bind_ok {x : ExceptT ε (StateM σ) α} {f : α → ExceptT ε (StateM σ) β}
    {s s'' : σ} {b : β} (h : (x >>= f).run.run s = (.ok b, s'')) :
    ∃ a s', x.run.run s = (.ok a, s') ∧ (f a).run.run s' = (.ok b, s'') := by
  cases hx : x.run.run s with
  | mk result s' =>
    cases result with
    | ok a =>
      rw [run_bind_ok hx] at h
      exact ⟨a, s', rfl, h⟩
    | error e =>
      rw [run_bind_error hx] at h
      cases h

/-- A sequence that fails does so in one of its parts. -/
theorem run_bind_eq_error {x : ExceptT ε (StateM σ) α} {f : α → ExceptT ε (StateM σ) β}
    {s s'' : σ} {e : ε} (h : (x >>= f).run.run s = (.error e, s'')) :
    x.run.run s = (.error e, s'') ∨
      ∃ a s', x.run.run s = (.ok a, s') ∧ (f a).run.run s' = (.error e, s'') := by
  cases hx : x.run.run s with
  | mk result s' =>
    cases result with
    | ok a =>
      rw [run_bind_ok hx] at h
      exact .inr ⟨a, s', rfl, h⟩
    | error e' =>
      rw [run_bind_error hx] at h
      cases h
      exact .inl rfl

/-- A sequence whose second part changes nothing leaves what its first part leaves. -/
theorem run_bind_snd {x : ExceptT ε (StateM σ) α} {f : α → ExceptT ε (StateM σ) β}
    (h : ∀ a s, ((f a).run.run s).2 = s) (s : σ) : ((x >>= f).run.run s).2 = (x.run.run s).2 := by
  cases hx : x.run.run s with
  | mk result s' =>
    cases result with
    | ok a => rw [run_bind_ok hx, h]
    | error e => rw [run_bind_error hx]

/-- A run that has a result with some value has a result. -/
theorem exists_run_ok {x : ExceptT ε (StateM σ) α} {s : σ} {f : α → β} {b : β}
    (h : (x.run.run s).1.toOption.map f = some b) :
    ∃ a, x.run.run s = (.ok a, (x.run.run s).2) ∧ f a = b := by
  cases hx : x.run.run s with
  | mk result s' =>
    rw [hx] at h
    cases result with
    | ok a => exact ⟨a, rfl, Option.some.inj h⟩
    | error e => cases h

/-- A run whose faults are renamed ends as it did. -/
theorem run_adapt {δ : Type} (f : ε → δ) (x : ExceptT ε (StateM σ) α) (s : σ) :
    (x.adapt f).run.run s = ((x.run.run s).1.mapError f, (x.run.run s).2) := rfl

/-- What is done at the end of a run is done whether or not the run failed. -/
theorem run_tryFinally {x : ExceptT ε (StateM σ) α} {f : ExceptT ε (StateM σ) β} {s s' s'' : σ}
    {r : Except ε α} {b : β} (hx : x.run.run s = (r, s')) (hf : f.run.run s' = (.ok b, s'')) :
    (tryFinally x f).run.run s = (r, s'') := by
  have hx : x s = (r, s') := hx
  have hf : f s' = (.ok b, s'') := hf
  simp only [tryFinally, tryFinally']
  -- the end does not know the result, so both ways out are followed in the same way
  cases r <;>
    simp only [ExceptT.run, ExceptT.mk, ExceptT.map, StateT.run, StateT.bind, bind, Functor.map, hx,
      hf] <;>
    rfl

/-- A run that does not fail is not caught. -/
theorem run_tryCatch_ok {x : ExceptT ε (StateM σ) α} {f : ε → ExceptT ε (StateM σ) α} {s s' : σ}
    {a : α} (h : x.run.run s = (.ok a, s')) : (tryCatch x f).run.run s = (.ok a, s') := by
  have h : x s = (.ok a, s') := h
  simp only [tryCatch, tryCatchThe, MonadExceptOf.tryCatch, ExceptT.tryCatch, ExceptT.run,
    ExceptT.mk, StateT.run, StateT.bind, bind, h]
  rfl

/-- A run that fails goes on with what is done about its fault. -/
theorem run_tryCatch_error {x : ExceptT ε (StateM σ) α} {f : ε → ExceptT ε (StateM σ) α}
    {s s' : σ} {e : ε} (h : x.run.run s = (.error e, s')) :
    (tryCatch x f).run.run s = (f e).run.run s' := by
  have h : x s = (.error e, s') := h
  simp [tryCatch, tryCatchThe, MonadExceptOf.tryCatch, ExceptT.tryCatch, ExceptT.run, ExceptT.mk,
    StateT.run, StateT.bind, bind, h]

/-- A run that starts with the state knows it. -/
theorem run_get_bind (f : σ → ExceptT ε (StateM σ) α) (s : σ) :
    ((get : ExceptT ε (StateM σ) σ) >>= f).run.run s = (f s).run.run s := rfl

/-- A loop of steps that cannot fail folds what the steps do. -/
theorem run_forIn (xs : List α) (step : α → ExceptT ε (StateM σ) Unit) (act : σ → α → σ)
    (h : ∀ x s, (step x).run.run s = (.ok (), act s x)) (s : σ) :
    (forIn xs PUnit.unit (fun x _ => do step x; pure (ForInStep.yield PUnit.unit)) :
      ExceptT ε (StateM σ) PUnit).run.run s = (.ok PUnit.unit, xs.foldl act s) := by
  induction xs generalizing s with
  | nil => rfl
  | cons x xs ih =>
    have hfirst : (do step x; pure (ForInStep.yield PUnit.unit) :
        ExceptT ε (StateM σ) (ForInStep PUnit)).run.run s =
          (.ok (.yield PUnit.unit), act s x) := by
      rw [run_bind_ok (h x s)]
      rfl
    rw [List.forIn_cons, run_bind_ok hfirst, List.foldl_cons]
    exact ih (act s x)

/-- **What the steps of a loop keep holds after it**: of the elements that have been done, when each
step extends it by the next one. -/
theorem of_run_forIn_ok {step : α → ExceptT ε (StateM σ) Unit} {xs : List α}
    {P : List α → σ → Prop}
    (hstep : ∀ done x s s', done ++ [x] <+: xs → P done s → (step x).run.run s = (.ok (), s') →
      P (done ++ [x]) s') {s s' : σ} (hstart : P [] s) {u : PUnit}
    (h : (forIn xs PUnit.unit (fun x _ => do step x; pure (ForInStep.yield PUnit.unit)) :
      ExceptT ε (StateM σ) PUnit).run.run s = (.ok u, s')) : P xs s' := by
  have hrest (rest done : List α) (hxs : done ++ rest = xs) {s : σ} (hdone : P done s)
      (h : (forIn rest PUnit.unit (fun x _ => do step x; pure (ForInStep.yield PUnit.unit)) :
        ExceptT ε (StateM σ) PUnit).run.run s = (.ok u, s')) : P xs s' := by
    induction rest generalizing done s with
    | nil =>
      cases h
      rwa [← hxs, List.append_nil]
    | cons x rest ih =>
      rw [List.forIn_cons] at h
      obtain ⟨_, s₂, hfirst, h⟩ := exists_of_run_bind_ok h
      obtain ⟨_, s₁, hx, hfirst⟩ := exists_of_run_bind_ok hfirst
      cases hfirst
      have hxs : (done ++ [x]) ++ rest = xs := by rw [← hxs, List.append_assoc]; rfl
      exact ih (done ++ [x]) hxs (hstep done x s s₂ ⟨rest, hxs⟩ hdone hx) h
  exact hrest xs [] rfl hstart h

/-- A loop over more than nothing gives the result of its first step and then the others. -/
theorem exists_of_run_mapM_cons_ok {f : α → ExceptT ε (StateM σ) β} {x : α} {xs : List α}
    {ys : List β} {s s'' : σ} (h : ((x :: xs).mapM f).run.run s = (.ok ys, s'')) :
    ∃ y rest s', (f x).run.run s = (.ok y, s') ∧ (xs.mapM f).run.run s' = (.ok rest, s'') ∧
      ys = y :: rest := by
  rw [List.mapM_cons] at h
  obtain ⟨y, s', hx, h⟩ := exists_of_run_bind_ok h
  obtain ⟨rest, s₃, hxs, h⟩ := exists_of_run_bind_ok h
  cases h
  exact ⟨y, rest, s', hx, hxs, rfl⟩

/-- A loop of steps that all give the same result and change nothing changes nothing. -/
theorem run_mapM_of_forall {f : α → ExceptT ε (StateM σ) β} {y : β} {s : σ} {xs : List α}
    (h : ∀ x ∈ xs, (f x).run.run s = (.ok y, s)) :
    (xs.mapM f).run.run s = (.ok (xs.map fun _ => y), s) := by
  induction xs with
  | nil => rfl
  | cons x xs ih =>
    rw [List.forall_mem_cons] at h
    rw [List.mapM_cons, run_bind_ok h.1, run_bind_ok (ih h.2)]
    rfl

/-- A loop of steps that all succeed wherever something holds, and keep it, succeeds and keeps it. -/
theorem exists_run_forIn_of_forall {step : α → ExceptT ε (StateM σ) Unit} {P : σ → Prop}
    {xs : List α} (h : ∀ x ∈ xs, ∀ s, P s → ∃ s', (step x).run.run s = (.ok (), s') ∧ P s') {s : σ}
    (hs : P s) :
    ∃ s', (forIn xs PUnit.unit (fun x _ => do step x; pure (ForInStep.yield PUnit.unit)) :
      ExceptT ε (StateM σ) PUnit).run.run s = (.ok PUnit.unit, s') ∧ P s' := by
  induction xs generalizing s with
  | nil => exact ⟨s, rfl, hs⟩
  | cons x xs ih =>
    rw [List.forall_mem_cons] at h
    obtain ⟨s₁, hx, hs₁⟩ := h.1 s hs
    obtain ⟨s', hrest, hs'⟩ := ih h.2 hs₁
    have hfirst : (do step x; pure (ForInStep.yield PUnit.unit) :
        ExceptT ε (StateM σ) (ForInStep PUnit)).run.run s = (.ok (.yield PUnit.unit), s₁) := by
      rw [run_bind_ok hx]
      rfl
    exact ⟨s', by rw [List.forIn_cons, run_bind_ok hfirst]; exact hrest, hs'⟩

/-- What the parts of a sequence keep on either way out, the sequence keeps. -/
theorem of_run_bind {x : ExceptT ε (StateM σ) α} {f : α → ExceptT ε (StateM σ) β} {P : σ → Prop}
    {s : σ} (hx : P (x.run.run s).2)
    (hf : ∀ a s', x.run.run s = (.ok a, s') → P s' → P ((f a).run.run s').2) :
    P ((x >>= f).run.run s).2 := by
  cases hran : x.run.run s with
  | mk result s' =>
    rw [hran] at hx
    cases result with
    | ok a =>
      rw [run_bind_ok hran]
      exact hf a s' hran hx
    | error e => rwa [run_bind_error hran]

/-- What the steps of a loop keep on either way out, the loop keeps. -/
theorem of_run_mapM {f : α → ExceptT ε (StateM σ) β} {P : σ → Prop} {xs : List α}
    (hstep : ∀ x ∈ xs, ∀ s, P s → P ((f x).run.run s).2) {s : σ} (hs : P s) :
    P ((xs.mapM f).run.run s).2 := by
  induction xs generalizing s with
  | nil => exact hs
  | cons x xs ih =>
    rw [List.forall_mem_cons] at hstep
    rw [List.mapM_cons]
    refine of_run_bind (hstep.1 s hs) fun _ s₁ _ hs₁ => ?_
    exact of_run_bind (ih hstep.2 hs₁) fun _ _ _ hs₂ => hs₂

/-- **What the steps of a loop relate to its end, the loop relates to it**, on either way out: a
relation between where a run is and where it ends that each step carries back over itself. -/
theorem of_run_forIn (xs : List α) (step : α → ExceptT ε (StateM σ) Unit) {R : σ → σ → Prop}
    (hrefl : ∀ s, R s s) (hstep : ∀ x ∈ xs, ∀ s s', R ((step x).run.run s).2 s' → R s s') (s : σ) :
    R s ((forIn xs PUnit.unit (fun x _ => do step x; pure (ForInStep.yield PUnit.unit)) :
      ExceptT ε (StateM σ) PUnit).run.run s).2 := by
  induction xs generalizing s with
  | nil => exact hrefl s
  | cons x xs ih =>
    rw [List.forall_mem_cons] at hstep
    rw [List.forIn_cons]
    cases hx : (step x).run.run s with
    | mk result s₁ =>
      have hback (s' : σ) (h : R s₁ s') : R s s' := hstep.1 s s' (by rwa [hx])
      cases result with
      | ok _ =>
        have hfirst : (do step x; pure (ForInStep.yield PUnit.unit) :
            ExceptT ε (StateM σ) (ForInStep PUnit)).run.run s = (.ok (.yield PUnit.unit), s₁) := by
          rw [run_bind_ok hx]
          rfl
        rw [run_bind_ok hfirst]
        exact hback _ (ih hstep.2 s₁)
      | error e =>
        rw [run_bind_error (run_bind_error hx)]
        exact hback _ (hrefl s₁)

/-- A loop fails as one of its steps does. -/
theorem of_run_mapM_error {f : α → ExceptT ε (StateM σ) β} {P : ε → Prop} {xs : List α}
    (hstep : ∀ x ∈ xs, ∀ s s' e, (f x).run.run s = (.error e, s') → P e) {s s' : σ} {e : ε}
    (h : (xs.mapM f).run.run s = (.error e, s')) : P e := by
  induction xs generalizing s with
  | nil => cases h
  | cons x xs ih =>
    rw [List.forall_mem_cons] at hstep
    rw [List.mapM_cons] at h
    obtain hx | ⟨y, s₁, -, h⟩ := run_bind_eq_error h
    · exact hstep.1 s s' e hx
    · obtain hxs | ⟨rest, s₂, -, h⟩ := run_bind_eq_error h
      · exact ih hstep.2 hxs
      · cases h

end LintReport
