/-!
# Faults of YAML texts

## Main definitions

* `Yaml.Fault`: why a text cannot be read.
-/

namespace LintReport.Yaml

/-- Why a text cannot be read. -/
inductive Fault
  /-- It is not well-formed, or holds a tag or a key that has no meaning here. -/
  | malformed
  /-- An escape names a code point that does not exist. -/
  | codeOutOfRange
  /-- An escape names a code point beyond 31 bits. -/
  | codeOverflow
  /-- A tagged scalar is no number, no date or no time of its kind. -/
  | badNumber
  /-- A tagged scalar is no Boolean word. -/
  | badWord
  /-- A tagged number has no digits at all. -/
  | emptyNumber
  /-- A tagged scalar does not have the form of a date. -/
  | noDate
  /-- A tagged collection stands for a date. -/
  | collectionAsDate
  /-- A number is too large for its kind. -/
  | numberOverflow
  /-- Its collections are nested too deeply. -/
  | tooDeep
deriving DecidableEq, Repr

end LintReport.Yaml
