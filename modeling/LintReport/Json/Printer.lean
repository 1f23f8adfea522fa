import LintReport.Json.Basic
import LintReport.Number.Shortest
import LintReport.Text.Hex
import LintReport.Text.Quoted

/-!
# Writing JSON

The text is ASCII: every other character of a string is written by the codes of its UTF-16 form. A
value is written on one line, with a space after each comma and colon, or over several lines, with
each level indented by two more blanks.

## Main definitions

* `Json.compact`: a value on one line.
* `Json.pretty`: a value over several lines.
* `Json.quoted`: a string in its quotes.
-/

namespace LintReport.Json

/-- The escape of a UTF-16 code unit. -/
def codeEscape (n : Nat) : List Char := Text.backslash :: 'u' :: Text.hexPad 4 n

/-- One character inside the quotes of a string. -/
def quotedChar (c : Char) : List Char :=
  let n := c.toNat
  if c == Text.doubleQuote || c == Text.backslash then [Text.backslash, c]
  else if c == '\n' then [Text.backslash, 'n']
  else if c == '\r' then [Text.backslash, 'r']
  else if c == '\t' then [Text.backslash, 't']
  else if n == 0x0C then [Text.backslash, 'f']
  else if n == 0x08 then [Text.backslash, 'b']
  else if 0x20 ≤ n && n < 0x7F then [c]
  else if n < 0x10000 then codeEscape n
  else
    codeEscape (0xD800 + (n - 0x10000) / 0x400) ++ codeEscape (0xDC00 + (n - 0x10000) % 0x400)

/-- A string in its quotes. -/
def quoted (s : String) : List Char :=
  Text.doubleQuote :: s.toList.flatMap quotedChar ++ [Text.doubleQuote]

/-- The layout of a binary64 number in JSON. -/
def numberLayout : Binary64.Layout :=
  { Binary64.Layout.plain with nan := "NaN", infinity := "Infinity" }

/-- The characters of a value that is neither an array nor an object. -/
def scalarChars : Json → List Char
  | null => "null".toList
  | bool true => "true".toList
  | bool false => "false".toList
  | int i => (toString i).toList
  | float x => x.toChars numberLayout
  | str s => quoted s
  | arr _ => []
  | obj _ => []

/-! ### One line -/

mutual

/-- The characters of a value on one line. -/
def compactChars : Json → List Char
  | arr items => '[' :: compactItems items ++ [']']
  | obj members => '\x7b' :: compactMembers members ++ ['\x7d']
  | null => scalarChars null
  | bool b => scalarChars (bool b)
  | int i => scalarChars (int i)
  | float x => scalarChars (float x)
  | str s => scalarChars (str s)

/-- The elements of an array on one line. -/
def compactItems : List Json → List Char
  | [] => []
  | [v] => compactChars v
  | v :: w :: rest => compactChars v ++ ',' :: ' ' :: compactItems (w :: rest)

/-- The members of an object on one line. -/
def compactMembers : List (String × Json) → List Char
  | [] => []
  | [(k, v)] => quoted k ++ ':' :: ' ' :: compactChars v
  | (k, v) :: m :: rest =>
    quoted k ++ ':' :: ' ' :: compactChars v ++ ',' :: ' ' :: compactMembers (m :: rest)

end

/-- A value on one line. -/
def compact (v : Json) : String := String.ofList (compactChars v)

/-! ### Several lines -/

/-- A new line at a depth. -/
def newLine (depth : Nat) : List Char := '\n' :: List.replicate (2 * depth) ' '

mutual

/-- The characters of a value over several lines. Its first line stands at `depth`. -/
def prettyChars (depth : Nat) : Json → List Char
  | arr [] => ['[', ']']
  | arr (v :: rest) =>
    '[' :: newLine (depth + 1) ++ prettyItems (depth + 1) (v :: rest) ++ newLine depth ++ [']']
  | obj [] => ['\x7b', '\x7d']
  | obj (m :: rest) =>
    '\x7b' :: newLine (depth + 1) ++ prettyMembers (depth + 1) (m :: rest) ++ newLine depth ++
      ['\x7d']
  | null => scalarChars null
  | bool b => scalarChars (bool b)
  | int i => scalarChars (int i)
  | float x => scalarChars (float x)
  | str s => scalarChars (str s)

/-- The elements of an array, each on lines of its own. -/
def prettyItems (depth : Nat) : List Json → List Char
  | [] => []
  | [v] => prettyChars depth v
  | v :: w :: rest => prettyChars depth v ++ ',' :: newLine depth ++ prettyItems depth (w :: rest)

/-- The members of an object, each on lines of its own. -/
def prettyMembers (depth : Nat) : List (String × Json) → List Char
  | [] => []
  | [(k, v)] => quoted k ++ ':' :: ' ' :: prettyChars depth v
  | (k, v) :: m :: rest =>
    quoted k ++ ':' :: ' ' :: prettyChars depth v ++ ',' :: newLine depth ++
      prettyMembers depth (m :: rest)

end

/-- A value over several lines. -/
def pretty (v : Json) : String := String.ofList (prettyChars 0 v)

end LintReport.Json
