import LintReport.Text.Hex
import LintReport.Text.Quoted
import LintReport.Yaml.Fault
import LintReport.Yaml.Token.Plain

/-!
# Quoted scalars

Between apostrophes only the apostrophe itself is special: it is written twice. Between double
quotes a backslash starts an escape. In both, line breaks are folded as in plain scalars.

## Main definitions

* `Yaml.quotedScalar`: a whole quoted scalar.
* `Yaml.escapeMeaning?`, `Yaml.escapeDigits?`: the escapes.
-/

namespace LintReport.Yaml

/-- The character that a one-letter escape stands for. -/
def escapeMeaning? (c : Char) : Option Char :=
  let table : List (Char × Nat) :=
    [('0', 0x00), ('a', 0x07), ('b', 0x08), ('t', 0x09), ('\t', 0x09), ('n', 0x0A), ('v', 0x0B),
      ('f', 0x0C), ('r', 0x0D), ('e', 0x1B), (' ', 0x20), (Text.doubleQuote, 0x22),
      (Text.backslash, 0x5C), ('/', 0x2F), ('N', 0x85), ('_', 0xA0), ('L', 0x2028), ('P', 0x2029)]
  (table.lookup c).map Char.ofNat

/-- The number of digits of a code escape. -/
def escapeDigits? (c : Char) : Option Nat :=
  if c == 'x' then some 2 else if c == 'u' then some 4 else if c == 'U' then some 8 else none

/-- The character of a code point. Half of a surrogate pair becomes the replacement character. -/
def charOfCode (n : Nat) : Except Fault Char :=
  if 0x7FFFFFFF < n then .error .codeOverflow
  else if 0x10FFFF < n then .error .codeOutOfRange
  else .ok (if n.isValidChar then Char.ofNat n else '\uFFFD')

/-- The empty lines inside a quoted scalar, after those in `done`. A separator of documents must not
stand there. -/
def quotedBreaks : Nat → List Char → Cursor → Except Fault (List Char × Cursor)
  | 0, done, c => .ok (done, c)
  | budget + 1, done, c =>
    if c.atSeparator then .error .malformed
    else
      let c := c.skip isSpaceOrTab
      match c.lineBreak? with
      | none => .ok (done, c)
      | some (b, c) => quotedBreaks budget (done ++ [b]) c

/-- Blanks and line breaks inside a quoted scalar. -/
def quotedGap (c : Cursor) : Except Fault (List Char × Cursor) :=
  let (blanks, c) := c.span isSpaceOrTab
  if c.peek == endMark then .error .malformed
  else
    match c.lineBreak? with
    | none => .ok (blanks, c)
    | some (first, c) => do
      let (more, c) ← quotedBreaks (c.rest.length + 1) [] c
      return (foldBreaks first more, c)

/-- The characters that have no meaning of their own inside quotes. -/
def isQuotedPlain (c : Char) : Bool :=
  !(c == Text.apostrophe || c == Text.doubleQuote || c == Text.backslash || isGap c)

/-- What an escape stands for, given the place after its backslash. A line break stands for the
empty lines after it. -/
def quotedEscape (c : Cursor) : Except Fault (List Char × Cursor) :=
  match escapeMeaning? c.peek, escapeDigits? c.peek with
  | some meant, _ => .ok ([meant], c.advance)
  | none, some width =>
    let c := c.advance
    let digits := c.rest.take width
    if digits.length == width then
      match Text.hexNumber? digits with
      | some n => (charOfCode n).map fun ch => ([ch], c.drop width)
      | none => .error .malformed
    else .error .malformed
  | none, none =>
    match c.lineBreak? with
    | some (_, c) => quotedBreaks (c.rest.length + 1) [] c
    | none => .error .malformed

/-- The characters of a quoted scalar up to the next blank or the closing quote, after those in
`done`. -/
def quotedRun (double : Bool) : Nat → List Char → Cursor → Except Fault (List Char × Cursor)
  | 0, done, c => .ok (done, c)
  | budget + 1, done, c =>
    let (run, c) := c.span isQuotedPlain
    let done := done ++ run
    let ch := c.peek
    if !double && ch == Text.apostrophe && c.peekAt 1 == Text.apostrophe then
      quotedRun double budget (done ++ [Text.apostrophe]) (c.drop 2)
    else if (double && ch == Text.apostrophe) ||
        (!double && (ch == Text.doubleQuote || ch == Text.backslash)) then
      quotedRun double budget (done ++ [ch]) c.advance
    else if double && ch == Text.backslash then do
      let (meant, c) ← quotedEscape c.advance
      quotedRun double budget (done ++ meant) c
    else .ok (done, c)

/-- The rest of a quoted scalar up to and with its closing quote. -/
def quotedRest (double : Bool) : Nat → List Char → Cursor → Except Fault (List Char × Cursor)
  | 0, _, _ => .error .malformed
  | budget + 1, done, c =>
    if c.peek == (if double then Text.doubleQuote else Text.apostrophe) then .ok (done, c.advance)
    else do
      let (gap, c) ← quotedGap c
      let (run, c) ← quotedRun double (c.rest.length + 1) [] c
      quotedRest double budget (done ++ gap ++ run) c

/-- The quoted scalar whose opening quote stands at a place. -/
def quotedScalar (double : Bool) (c : Cursor) : Except Fault (List Char × Cursor) := do
  let c := c.advance
  let (run, c) ← quotedRun double (c.rest.length + 1) [] c
  quotedRest double (c.rest.length + 1) run c

end LintReport.Yaml
