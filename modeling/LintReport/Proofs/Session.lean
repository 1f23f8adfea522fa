import LintReport.Proofs.Effects
import LintReport.Session

/-!
# Parts of a Run

A run knows the files and changes them by operations that may fail. What such a part of a run has
done is told by what it says about the files: nothing else of the session changes.

## Main results

* `Run.run_onFiles`, `Run.files_of_run_onFiles`, `Run.run_onFiles_adapt_ok`: an operation on the
  files.
* `Run.run_ofExcept`, `Run.run_ofExcept_ok`: a computation that changes nothing.
* `Run.run_attempt`: a run whose fault is a value.
-/

namespace LintReport.Run

variable {ε β : Type}

/-- A run that starts with the files knows them. -/
theorem run_files_bind (f : FileTree → Run ε β) (s : Session) :
    (Run.files >>= f).run.run s = (f s.files).run.run s := rfl

/-- A run whose fault is handed out as a value does not fail. -/
theorem run_attempt {δ α : Type} (x : Run ε α) (s : Session) :
    (Run.attempt x : Run δ (Except ε α)).run.run s = (.ok (x.run.run s).1, (x.run.run s).2) := rfl

/-- An operation on the files ends as it does there, and changes nothing else. -/
theorem run_onFiles {α : Type} (step : ExceptT ε (StateM FileTree) α) (s : Session) :
    (Run.onFiles step).run.run s =
      ((step.run.run s.files).1, { s with files := (step.run.run s.files).2 }) := by
  rw [Run.onFiles, run_files_bind]
  cases hran : step.run.run s.files with
  | mk result t =>
    have hran : step.run s.files = (result, t) := hran
    rw [hran]
    cases result <;> rfl

/-- What an operation on the files has done to them on either way out. -/
theorem files_of_run_onFiles {δ α : Type} {f : δ → ε} {step : ExceptT δ (StateM FileTree) α}
    {result : Except ε α} {s s' : Session}
    (h : (Run.onFiles (step.adapt f)).run.run s = (result, s')) :
    s'.files = (step.run.run s.files).2 := by
  rw [run_onFiles, run_adapt] at h
  cases h
  rfl

/-- What an operation on the files that gives a result has done to them, its faults renamed or not. -/
theorem run_onFiles_adapt_ok {δ α : Type} {f : δ → ε} {step : ExceptT δ (StateM FileTree) α}
    {a : α} {s s' : Session} (h : (Run.onFiles (step.adapt f)).run.run s = (.ok a, s')) :
    step.run.run s.files = (.ok a, s'.files) := by
  rw [run_onFiles, run_adapt] at h
  cases hran : step.run.run s.files with
  | mk result t =>
    rw [hran] at h
    cases result <;> cases h
    rfl

/-- A computation ends as it does and changes nothing. -/
theorem run_ofExcept {α : Type} (e : Except ε α) (s : Session) :
    (Run.ofExcept e).run.run s = (e, s) := by
  cases e <;> rfl

/-- A computation that gives a result changes nothing. -/
theorem run_ofExcept_ok {α : Type} {e : Except ε α} {a : α} {s s' : Session}
    (h : (Run.ofExcept e).run.run s = (.ok a, s')) : e = .ok a ∧ s' = s := by
  rw [run_ofExcept] at h
  cases h
  exact ⟨rfl, rfl⟩

end LintReport.Run
