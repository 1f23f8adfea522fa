/-!
# Tokens of YAML

## Main definitions

* `Yaml.Token`: brackets, marks, names and scalars.
* `Yaml.Directive`: the lines that may stand before a document.
-/

namespace LintReport.Yaml

/-- A line before a document. -/
inductive Directive
  | version (major minor : Nat)
  | tagHandle (handle meaning : String)
  | other
deriving DecidableEq, Repr

/-- A token. -/
inductive Token
  | directive (directive : Directive)
  | documentStart
  | documentEnd
  | blockSequenceStart
  | blockMappingStart
  | blockEnd
  | flowSequenceStart
  | flowSequenceEnd
  | flowMappingStart
  | flowMappingEnd
  | blockEntry
  | flowEntry
  | key
  | value
  | alias (name : String)
  | anchor (name : String)
  /-- A tag: a handle, unless the tag is written out, and what follows it. -/
  | tag (handle : Option String) (suffix : String)
  /-- A scalar. A plain one has no quotes and no block mark. -/
  | scalar (text : String) (plain : Bool)
  | streamEnd
deriving DecidableEq, Repr

end LintReport.Yaml
