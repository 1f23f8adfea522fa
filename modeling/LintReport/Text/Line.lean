/-!
# Lines

Where a text breaks into lines, and how line endings are unified when a file or the output of a
program is read as text.

## Main definitions

* `Text.isLineBoundary`: the characters that end a line of a note.
* `Text.firstLine`: what stands before the first of them.
* `Text.unifyNewlines`: carriage returns, alone or before a line feed, become line feeds.
-/

namespace LintReport.Text

/-- The ten characters that end a line: line feed, vertical tab, form feed, carriage return, the
file, group and record separators, next line, and the line and paragraph separators. -/
def isLineBoundary (c : Char) : Bool :=
  [0x0A, 0x0B, 0x0C, 0x0D, 0x1C, 0x1D, 0x1E, 0x85, 0x2028, 0x2029].contains c.toNat

/-- The characters before the first line boundary. -/
def firstLine (s : String) : String :=
  String.ofList (s.toList.takeWhile fun c => !isLineBoundary c)

/-- Every `\r\n` and every other `\r` becomes `\n`. -/
def unifyNewlines : List Char → List Char
  | [] => []
  | '\r' :: '\n' :: rest => '\n' :: unifyNewlines rest
  | c :: rest => (if c == '\r' then '\n' else c) :: unifyNewlines rest

end LintReport.Text
