import LintReport.Text.Quoted

/-!
# Text inside markup

The five characters that HTML reads as markup are written as entities, so that a rule id or a file
name shows as it is.

## Main definitions

* `Text.escapeMarkup`
-/

namespace LintReport.Text

/-- One character as it stands in HTML. -/
def escapeMarkupChar (c : Char) : List Char :=
  if c == '&' then "&amp;".toList
  else if c == '<' then "&lt;".toList
  else if c == '>' then "&gt;".toList
  else if c == doubleQuote then "&quot;".toList
  else if c == apostrophe then "&#x27;".toList
  else [c]

/-- A text as it stands in HTML. -/
def escapeMarkup (s : String) : String := String.ofList (s.toList.flatMap escapeMarkupChar)

end LintReport.Text
