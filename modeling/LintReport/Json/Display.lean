import LintReport.Json.Basic
import LintReport.Number.Shortest
import LintReport.Text.Collection
import LintReport.Text.Quoted

/-!
# The text of JSON values

A value that should be a text but is not is searched in the text that diagnostics show for it.

## Main definitions

* `Json.displayText`: a value as text.
* `Json.isFalsy`: the values that count as missing.
-/

namespace LintReport.Json

mutual

/-- A value inside a collection. -/
def displayQuoted : Json → String
  | null => Text.nullWord
  | bool b => Text.boolWord b
  | int i => toString i
  | float x => x.toText Binary64.Layout.plain
  | str s => Text.quote s
  | arr items => Text.listText (displayItems items)
  | obj members => Text.mapText (displayMembers members)

/-- The elements of an array. -/
def displayItems : List Json → List String
  | [] => []
  | v :: rest => displayQuoted v :: displayItems rest

/-- The members of an object. -/
def displayMembers : List (String × Json) → List (String × String)
  | [] => []
  | (k, v) :: rest => (Text.quote k, displayQuoted v) :: displayMembers rest

end

/-- A value as text. A string is its own text. -/
def displayText : Json → String
  | str s => s
  | v => displayQuoted v

/-- The values that count as missing: null, false, zero, and whatever is empty. -/
def isFalsy : Json → Bool
  | null => true
  | bool b => !b
  | int i => i == 0
  | float x => x.isZero
  | str s => s.isEmpty
  | arr items => items.isEmpty
  | obj members => members.isEmpty

end LintReport.Json
