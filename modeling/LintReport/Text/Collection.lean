/-!
# Collections in diagnostics

How null, Booleans and collections of texts that are already written are shown to people.

## Main definitions

* `Text.nullWord`, `Text.boolWord`
* `Text.listText`, `Text.mapText`, `Text.setText`, `Text.pairText`
* `Text.orEmptyList`: a text that may be missing.
-/

namespace LintReport.Text

/-- The word for the null value. -/
def nullWord : String := "None"

/-- The word for a Boolean. -/
def boolWord (b : Bool) : String := if b then "True" else "False"

/-- Elements between brackets. -/
def listText (items : List String) : String := "[" ++ ", ".intercalate items ++ "]"

/-- A text, or an empty list where there is none. -/
def orEmptyList (text : Option String) : String := text.getD (listText [])

/-- Keys with their values between braces. -/
def mapText (members : List (String × String)) : String :=
  "\x7b" ++ ", ".intercalate (members.map fun (k, v) => k ++ ": " ++ v) ++ "\x7d"

/-- The elements of a set between braces. The empty set has a word of its own. -/
def setText (members : List String) : String :=
  if members.isEmpty then "set()" else "\x7b" ++ ", ".intercalate members ++ "\x7d"

/-- Two elements between parentheses. -/
def pairText (a b : String) : String := "(" ++ a ++ ", " ++ b ++ ")"

end LintReport.Text
