import LintReport.Yaml.Character

/-!
# Places in a YAML text

A cursor is what is left of a text, with the number of characters before it, its line and its
column. Line and column decide the structure of a text, so every step keeps them.

## Main definitions

* `Cursor`, `Cursor.advance`, `Cursor.drop`.
* `Cursor.span`: the leading characters of a class and the place after them.
* `Cursor.lineBreak?`: one line break, which may be two characters.
-/

namespace LintReport.Yaml

/-- A place in a text. -/
structure Cursor where
  rest : List Char
  index : Nat := 0
  line : Nat := 0
  column : Nat := 0
deriving Repr

namespace Cursor

/-- The character at a place. -/
def peek (c : Cursor) : Char := c.rest.headD endMark

/-- The character some steps ahead. -/
def peekAt (c : Cursor) (n : Nat) : Char := c.rest.getD n endMark

/-- The place after one character. A carriage return before a line feed does not end the line, and a
byte order mark has no width. -/
def advance (c : Cursor) : Cursor :=
  match c.rest with
  | [] => c
  | ch :: rest =>
    let endsLine := isBreak ch && !(ch == '\r' && rest.head? == some '\n')
    if endsLine then ⟨rest, c.index + 1, c.line + 1, 0⟩
    else if ch == '\uFEFF' then ⟨rest, c.index + 1, c.line, c.column⟩
    else ⟨rest, c.index + 1, c.line, c.column + 1⟩

/-- The place after some characters. -/
def drop : Nat → Cursor → Cursor
  | 0, c => c
  | n + 1, c => drop n c.advance

/-- The leading characters of a class, and the place after them. -/
def span (p : Char → Bool) (c : Cursor) : List Char × Cursor :=
  let taken := c.rest.takeWhile p
  (taken, c.drop taken.length)

/-- The place after the leading characters of a class. -/
def skip (p : Char → Bool) (c : Cursor) : Cursor := (c.span p).2

/-- The place after leading spaces. -/
def skipSpaces (c : Cursor) : Cursor := c.skip (· == ' ')

/-- The place after leading spaces, but not beyond a column. -/
def skipSpacesTo (column : Nat) (c : Cursor) : Cursor :=
  let spaces := (c.rest.takeWhile (· == ' ')).length
  c.drop (min spaces (column - c.column))

/-- The line break at a place, as it stands in the value of a scalar, and the place after it. -/
def lineBreak? (c : Cursor) : Option (Char × Cursor) :=
  match c.rest with
  | [] => none
  | ch :: rest =>
    if ch == '\r' && rest.head? == some '\n' then some ('\n', c.drop 2)
    else if ch == '\r' || ch == '\n' || ch.toNat == 0x85 then some ('\n', c.advance)
    else if isBreak ch then some (ch, c.advance)
    else none

/-- Whether the three characters that separate documents stand at a place. -/
def atSeparator (c : Cursor) : Bool :=
  (['-', '-', '-'].isPrefixOf c.rest || ['.', '.', '.'].isPrefixOf c.rest) && isGap (c.peekAt 3)

/-- The place after blanks and a comment, which have to reach to the end of the line, and after the
line break. `none` if something else stands there. -/
def ignoredLine? (c : Cursor) : Option Cursor :=
  let c := c.skipSpaces
  let c := if c.peek == '#' then c.skip fun ch => !isLineEnd ch else c
  match c.lineBreak? with
  | some (_, after) => some after
  | none => if c.peek == endMark then some c else none

end Cursor

end LintReport.Yaml
