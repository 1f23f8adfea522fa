import LintReport.Proofs.Number.NotANumber
import LintReport.Settings

/-!
# The Time Limit of the Settings

The time limit for a reply may be set by a variable. A text that is no number is refused, and so is
a number that is at most zero. Not-a-number is neither: it is not at most zero, so it is accepted,
although it is not greater than zero.

## Main definitions

* `Settings.timeoutVariable`: the name of the variable.

## Main results

* `Settings.ofEnvironment_eq_error_iff`: settings are refused for their time limit only.
* `Settings.timeout_positive_iff`: **a time limit is refused or greater than zero, unless it spells
  not-a-number**.
-/

namespace LintReport.Settings

variable {env : Environment} {name : String} {fault : ConfigurationFault} {settings : Settings}

/-- The variable that sets the time limit. -/
def timeoutVariable : String := "TEMPO_LINTS_HTTP_TIMEOUT"

/-! ### Numbers in variables -/

/-- **Which numbers in a variable are refused**: those that are no numbers, and those that are at
most zero. -/
theorem positive?_eq_error_iff :
    positive? env name = .error fault ↔ ∃ text, value? env name = some text ∧
      (Numeral.float? text = none ∧ fault = .notNumber name text ∨
        ∃ x v, Numeral.float? text = some x ∧ x.value? = some v ∧ v ≤ 0 ∧
          fault = .notPositive name) := by
  rw [positive?]
  cases value? env name with
  | none => simp
  | some text =>
    simp only [Option.some.injEq, exists_eq_left']
    cases Numeral.float? text with
    | none => simp [eq_comm]
    | some x =>
      dsimp only
      have hrefused : x.isNonPositive = true ↔ ∃ v, x.value? = some v ∧ v ≤ 0 :=
        Binary64.isNonPositive_iff
      split
      · next hle =>
        obtain ⟨v, hv, hzero⟩ := hrefused.1 hle
        simp [hv, hzero, eq_comm]
      · next hgt =>
        have hnone : ¬ ∃ v, x.value? = some v ∧ v ≤ 0 := mt hrefused.2 hgt
        constructor
        · nofun
        · rintro (⟨hread, -⟩ | ⟨_, v, hx, hv, hzero, -⟩)
          · cases hread
          · obtain rfl := Option.some.inj hx
            exact absurd ⟨v, hv, hzero⟩ hnone

/-- **Which numbers in a variable are accepted**: those that are greater than zero, and
not-a-number. -/
theorem positive?_eq_ok_iff {x : Binary64} :
    positive? env name = .ok (some x) ↔ ∃ text, value? env name = some text ∧
      Numeral.float? text = some x ∧ ((∃ v, x.value? = some v ∧ 0 < v) ∨ x = .nan) := by
  rw [positive?, ← Binary64.not_isNonPositive_iff]
  cases value? env name with
  | none => simp
  | some text =>
    simp only [Option.some.injEq, exists_eq_left']
    cases Numeral.float? text with
    | none => simp
    | some y =>
      dsimp only
      split
      · next hle =>
        constructor
        · nofun
        · rintro ⟨hy, hgt⟩
          obtain rfl := Option.some.inj hy
          cases hle.symm.trans hgt
      · next hgt =>
        rw [Except.ok.injEq, iff_self_and]
        intro hy
        obtain rfl := Option.some.inj hy
        simpa using hgt

/-- No number is accepted from a variable that counts as not set. -/
theorem positive?_eq_ok_none_iff :
    positive? env name = .ok none ↔ value? env name = none := by
  rw [positive?]
  cases value? env name with
  | none => simp
  | some text =>
    dsimp only
    cases Numeral.float? text with
    | none => simp
    | some x => dsimp only; split <;> simp

/-! ### Settings -/

/-- The settings are refused for their time limit only. -/
theorem ofEnvironment_eq_error_iff :
    ofEnvironment env = .error fault ↔ positive? env timeoutVariable = .error fault := by
  rw [ofEnvironment, timeoutVariable]
  cases positive? env "TEMPO_LINTS_HTTP_TIMEOUT" <;> simp [bind, Except.bind, pure, Except.pure]

/-- Settings that are accepted have the time limit of the variable. -/
theorem exists_of_positive? {limit : Option Binary64}
    (h : positive? env timeoutVariable = .ok limit) :
    ∃ settings, ofEnvironment env = .ok settings ∧
      settings.timeout = limit.getD ({} : Settings).timeout := by
  rw [timeoutVariable] at h
  rw [ofEnvironment, h]
  exact ⟨_, rfl, rfl⟩

/-- The time limit that is used where none is set is greater than zero. -/
theorem default_timeout_pos : ∃ v, ({} : Settings).timeout.value? = some v ∧ 0 < v := by
  obtain hpos | hnan := Binary64.not_isNonPositive_iff.1
    (show ({} : Settings).timeout.isNonPositive = false by decide +kernel)
  · exact hpos
  · exact absurd hnan (by decide +kernel)

/-- **Which settings are accepted**: those whose time limit is not set, and those for which it reads
as a number that is greater than zero or as not-a-number. -/
theorem timeout_of_ofEnvironment (h : ofEnvironment env = .ok settings) :
    (value? env timeoutVariable = none ∧ settings.timeout = .ofRatio false 30 1 ∨
      ∃ text, value? env timeoutVariable = some text ∧
        Numeral.float? text = some settings.timeout) ∧
    ((∃ v, settings.timeout.value? = some v ∧ 0 < v) ∨ settings.timeout = .nan) := by
  cases hlimit : positive? env timeoutVariable with
  | error fault => cases h.symm.trans (ofEnvironment_eq_error_iff.2 hlimit)
  | ok limit =>
    obtain ⟨_, hsettings, htimeout⟩ := exists_of_positive? hlimit
    obtain rfl := Except.ok.inj (h.symm.trans hsettings)
    rw [htimeout]
    cases limit with
    | none => exact ⟨.inl ⟨positive?_eq_ok_none_iff.1 hlimit, rfl⟩, .inl default_timeout_pos⟩
    | some x =>
      obtain ⟨text, htext, hread, hx⟩ := positive?_eq_ok_iff.1 hlimit
      exact ⟨.inr ⟨text, htext, hread⟩, hx⟩

/-- The text of a variable is trimmed, so it is read as not-a-number only where it spells that. -/
theorem float?_eq_nan_iff_of_value? {text : String} (h : value? env name = some text) :
    Numeral.float? text = some .nan ↔ Numeral.SpellsNan text.toList := by
  obtain ⟨held, -, rfl⟩ := Option.map_eq_some_iff.1 (Option.filter_eq_some_iff.1 h).1
  rw [Numeral.float?_eq_nan_iff, Numeral.core_trim]

/-- **Not-a-number is accepted** exactly where it is spelled. -/
theorem exists_timeout_nan_iff :
    (∃ settings, ofEnvironment env = .ok settings ∧ settings.timeout = .nan) ↔
      ∃ text, value? env timeoutVariable = some text ∧ Numeral.SpellsNan text.toList := by
  constructor
  · rintro ⟨settings, hsettings, hnan⟩
    obtain ⟨⟨-, hdefault⟩ | ⟨text, htext, hread⟩, -⟩ := timeout_of_ofEnvironment hsettings
    · exact absurd (hdefault.symm.trans hnan) (Binary64.ofRatio_ne_nan _ _ _)
    · rw [hnan] at hread
      exact ⟨text, htext, (float?_eq_nan_iff_of_value? htext).1 hread⟩
  · rintro ⟨text, htext, hspells⟩
    have hread := (float?_eq_nan_iff_of_value? htext).2 hspells
    exact exists_of_positive? (positive?_eq_ok_iff.2 ⟨text, htext, hread, .inr rfl⟩)

/-- **A time limit is refused or greater than zero, unless it spells not-a-number.** For every
environment:

* the settings are refused exactly where the variable holds a text that is no number, or a number
  that is at most zero, and the fault names the variable;
* otherwise the time limit is what the text of the variable is read as, or thirty seconds where the
  variable is not set or blank, and it is greater than zero or not-a-number;
* the settings are refused or the time limit is greater than zero exactly where the trimmed text
  does not spell `nan` in some letter case, perhaps behind a sign;
* where it does, the settings are accepted with not-a-number as the time limit. -/
theorem timeout_positive_iff (env : Environment) :
    let held := value? env timeoutVariable
    (∀ fault, ofEnvironment env = .error fault ↔ ∃ text, held = some text ∧
      (Numeral.float? text = none ∧ fault = .notNumber timeoutVariable text ∨
        ∃ x v, Numeral.float? text = some x ∧ x.value? = some v ∧ v ≤ 0 ∧
          fault = .notPositive timeoutVariable)) ∧
    (∀ settings, ofEnvironment env = .ok settings →
      (held = none ∧ settings.timeout = .ofRatio false 30 1 ∨
        ∃ text, held = some text ∧ Numeral.float? text = some settings.timeout) ∧
      ((∃ v, settings.timeout.value? = some v ∧ 0 < v) ∨ settings.timeout = .nan)) ∧
    (((∃ fault, ofEnvironment env = .error fault) ∨
        ∃ settings, ofEnvironment env = .ok settings ∧
          ∃ v, settings.timeout.value? = some v ∧ 0 < v) ↔
      ¬ ∃ text, held = some text ∧ Numeral.SpellsNan text.toList) ∧
    ((∃ settings, ofEnvironment env = .ok settings ∧ settings.timeout = .nan) ↔
      ∃ text, held = some text ∧ Numeral.SpellsNan text.toList) := by
  intro held
  refine ⟨fun fault => ofEnvironment_eq_error_iff.trans positive?_eq_error_iff,
    fun settings => timeout_of_ofEnvironment, ?_, exists_timeout_nan_iff⟩
  rw [← exists_timeout_nan_iff]
  constructor
  · rintro (⟨fault, hfault⟩ | ⟨settings, hsettings, v, hv, -⟩) ⟨_, haccepted, hnan⟩
    · cases hfault.symm.trans haccepted
    · obtain rfl := Except.ok.inj (hsettings.symm.trans haccepted)
      cases hv.symm.trans (Binary64.value?_eq_none_iff.2 hnan)
  · intro hnan
    cases hsettings : ofEnvironment env with
    | error fault => exact .inl ⟨fault, rfl⟩
    | ok settings =>
      obtain hpos | heq := (timeout_of_ofEnvironment hsettings).2
      · exact .inr ⟨settings, rfl, hpos⟩
      · exact absurd ⟨settings, hsettings, heq⟩ hnan

/-- A time limit that is not-a-number is accepted, although it is not greater than zero. -/
theorem notANumber_accepted :
    ofEnvironment [("TEMPO_LINTS_HTTP_TIMEOUT", "nan")] = .ok { timeout := .nan } ∧
      ¬ ∃ v, Binary64.value? .nan = some v ∧ 0 < v :=
  ⟨by decide +kernel, fun ⟨_, hv, _⟩ => nomatch hv⟩

end LintReport.Settings
