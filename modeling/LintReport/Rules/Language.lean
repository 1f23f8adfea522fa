import LintReport.Path

/-!
# Languages and their rule directories

Rules are kept by language, and the rules that several languages share once more for each. A run
selects one language or all of them.

## Main definitions

* `RuleLanguage`, `LanguageSelector`, `LanguageSelector.ofText?`.
* `LanguageSelector.entries`: the directories of a selection, relative to the rules.
* `LanguageSelector.ruleDirs`, `LanguageSelector.vendoredDirs`.
-/

namespace LintReport

/-- A language that has rules. -/
inductive RuleLanguage
  | rust
  | typescript
deriving DecidableEq, Repr

/-- The name of a language. -/
def RuleLanguage.name : RuleLanguage → String
  | rust => "rust"
  | typescript => "typescript"

/-- What a run selects: one language, or all. -/
inductive LanguageSelector
  | only (language : RuleLanguage)
  | all
deriving DecidableEq, Repr

namespace LanguageSelector

/-- The selectors, in the order in which they are listed to people. -/
def choices : List LanguageSelector := [only .rust, only .typescript, all]

/-- The text of a selector. -/
def text : LanguageSelector → String
  | only language => language.name
  | all => "all"

/-- The selector that a text means. -/
def ofText? (s : String) : Option LanguageSelector := choices.find? fun c => c.text == s

/-- The texts of all selectors with commas between them. -/
def choiceList : String := ", ".intercalate (choices.map text)

/-- What is said about a text that is no selector. -/
def invalidMessage (s : String) : String :=
  s!"Invalid language '{s}'. Must be one of: {choiceList}"

/-- The languages of a selection. -/
def languages : LanguageSelector → List RuleLanguage
  | only language => [language]
  | all => [.rust, .typescript]

/-- The names that lead from the rules to the shared directory of a language. -/
def sharedEntry (language : RuleLanguage) : List String := ["shared", language.name]

/-- The names that lead from the rules to the own directory of a language. -/
def ownEntry (language : RuleLanguage) : List String := [language.name]

/-- The directories of a selection, language by language, shared rules first. -/
def entries (selector : LanguageSelector) : List (List String) :=
  selector.languages.flatMap fun language => [sharedEntry language, ownEntry language]

/-- The directories of a selection, all shared ones first. -/
def entriesSharedFirst (selector : LanguageSelector) : List (List String) :=
  selector.languages.map sharedEntry ++ selector.languages.map ownEntry

/-- The rule directories of a selection below the rules. -/
def ruleDirs (selector : LanguageSelector) (root : Path) : List Path :=
  selector.entries.map root.descend

/-- The directory of a project that holds vendored rules. -/
def vendorDir : String := ".ast-grep"

/-- The rule directories of a selection relative to a project that keeps its own copy. -/
def vendoredDirs (selector : LanguageSelector) : List String :=
  selector.entries.map fun names => "/".intercalate (vendorDir :: "rules" :: names)

end LanguageSelector

end LintReport
