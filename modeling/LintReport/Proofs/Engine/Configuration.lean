import LintReport.Engine.Configuration
import LintReport.Rules.Language

/-!
# Configurations that Read Back

A configuration is written only if it reads back as the directories that it was written for. For the
directories of a project's own copy of the rules it is a text of plain lines.

## Main results

* `Configuration.of_generate`: **a configuration reads back as its directories**.
* `Configuration.return_notMem_vendored`: the configuration of vendored rules has no carriage
  return.
-/

namespace LintReport.Configuration

/-- **A configuration that is generated** lists its directories, and reads back as them. -/
theorem of_generate {dirs : List String} {text : String} (h : generate dirs = .ok text) :
    text = render dirs ∧ Configuration.read text = .ok dirs := by
  unfold generate at h
  dsimp only at h
  cases hread : Configuration.read (render dirs) with
  | error fault =>
    rw [hread] at h
    cases fault <;> cases h
  | ok back =>
    rw [hread] at h
    dsimp only at h
    split at h
    · next hback =>
      obtain rfl := Except.ok.inj h
      exact ⟨rfl, by rw [hread, beq_iff_eq.1 hback]⟩
    · cases h

theorem return_notMem_vendored (selector : LanguageSelector) :
    '\r' ∉ (render selector.vendoredDirs).toList := by
  cases selector with
  | all => decide +kernel
  | only language => cases language <;> decide +kernel

end LintReport.Configuration
