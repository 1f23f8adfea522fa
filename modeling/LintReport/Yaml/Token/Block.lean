import LintReport.Yaml.Fault
import LintReport.Yaml.Token.Plain

/-!
# Block scalars

After `|` the lines that follow are kept as they are; after `>` line breaks between lines that do
not start with a blank are folded. The first line that is not empty decides the indentation, unless
a digit gives it. A sign says what happens to the line breaks at the end.

## Main definitions

* `Yaml.BlockHeader`, `Yaml.blockHeader`: the signs after the mark.
* `Yaml.blockScalar`: a whole block scalar.
-/

namespace LintReport.Yaml

/-- What happens to the line breaks at the end of a block scalar. -/
inductive Chomping
  /-- All are dropped. -/
  | strip
  /-- One is kept. -/
  | clip
  /-- All are kept. -/
  | keep
deriving DecidableEq, Repr

/-- The signs after the mark of a block scalar. -/
structure BlockHeader where
  chomping : Chomping := .clip
  /-- By how much the lines are indented, if that is given. -/
  indentation : Option Nat := none
deriving DecidableEq, Repr

/-- A sign for the line breaks at the end, and the place after it. -/
def chompingSign? (c : Cursor) : Option (Chomping × Cursor) :=
  if c.peek == '+' then some (.keep, c.advance)
  else if c.peek == '-' then some (.strip, c.advance)
  else none

/-- A digit for the indentation, and the place after it. Zero is refused. -/
def indentationDigit (c : Cursor) : Except Fault (Option Nat × Cursor) :=
  if c.peek.isDigit then
    if c.peek == '0' then .error .malformed else .ok (some (c.peek.toNat - 48), c.advance)
  else .ok (none, c)

/-- The signs at a place, in either order, and the place after them. -/
def blockHeader (c : Cursor) : Except Fault (BlockHeader × Cursor) := do
  let (header, c) ←
    match chompingSign? c with
    | some (chomping, c) => do
      let (indentation, c) ← indentationDigit c
      pure (BlockHeader.mk chomping indentation, c)
    | none => do
      let (indentation, c) ← indentationDigit c
      match indentation, chompingSign? c with
      | some _, some (chomping, c) => pure (BlockHeader.mk chomping indentation, c)
      | _, _ => pure (BlockHeader.mk .clip indentation, c)
  if isSpaceOrEnd c.peek then return (header, c) else throw .malformed

/-- The empty lines at a place, the largest column that their spaces or those of the next line
reach, and the place after them. -/
def detectIndentation : Nat → List Char → Nat → Cursor → List Char × Nat × Cursor
  | 0, breaks, most, c => (breaks, most, c)
  | budget + 1, breaks, most, c =>
    let c := c.skipSpaces
    let most := max most c.column
    match c.lineBreak? with
    | some (b, c) => detectIndentation budget (breaks ++ [b]) most c
    | none => (breaks, most, c)

/-- The empty lines at a place, after those in `done`, and the place after them and the indentation
of the next line. -/
def blockBreaks (indent : Nat) : Nat → List Char → Cursor → List Char × Cursor
  | 0, done, c => (done, c)
  | budget + 1, done, c =>
    let c := c.skipSpacesTo indent
    match c.lineBreak? with
    | some (b, c) => blockBreaks indent budget (done ++ [b]) c
    | none => (done, c)

/-- What a block scalar has at its end: the value so far, the last line break, if there is one, and
the breaks of the empty lines after it. -/
structure BlockTail where
  text : List Char
  lastBreak : List Char
  breaks : List Char
  after : Cursor
deriving Repr

/-- The lines of a block scalar, from a place that is indented to where the text may start. -/
def blockLines (folded : Bool) (indent : Nat) :
    Nat → List Char → List Char → List Char → Cursor → BlockTail
  | 0, done, lastBreak, breaks, c => ⟨done, lastBreak, breaks, c⟩
  | budget + 1, done, lastBreak, breaks, c =>
    if c.column == indent && c.peek != endMark then
      let startsWithText := !isSpaceOrTab c.peek
      let (line, c) := c.span fun ch => !isLineEnd ch
      let done := done ++ breaks ++ line
      let (lastBreak, c) :=
        match c.lineBreak? with
        | some (b, c) => ([b], c)
        | none => ([], c)
      let (breaks, c) := blockBreaks indent (c.rest.length + 1) [] c
      if c.column == indent && c.peek != endMark then
        let joint :=
          if folded && lastBreak == ['\n'] && startsWithText && !isSpaceOrTab c.peek then
            if breaks.isEmpty then [' '] else []
          else lastBreak
        blockLines folded indent budget (done ++ joint) lastBreak breaks c
      else ⟨done, lastBreak, breaks, c⟩
    else ⟨done, lastBreak, breaks, c⟩

/-- The block scalar whose mark stands at a place. `parent` is the indentation of the collection
that it stands in. -/
def blockScalar (folded : Bool) (parent : Int) (c : Cursor) :
    Except Fault (List Char × Cursor) := do
  let (header, c) ← blockHeader c.advance
  match c.ignoredLine? with
  | none => throw .malformed
  | some c =>
    let least := max 1 (parent + 1).toNat
    let (breaks, indent, c) :=
      match header.indentation with
      | none =>
        let (breaks, most, c) := detectIndentation (c.rest.length + 1) [] 0 c
        (breaks, max least most, c)
      | some n =>
        let indent := least + n - 1
        let (breaks, c) := blockBreaks indent (c.rest.length + 1) [] c
        (breaks, indent, c)
    let tail := blockLines folded indent (c.rest.length + 1) [] [] breaks c
    let ending :=
      match header.chomping with
      | .strip => []
      | .clip => tail.lastBreak
      | .keep => tail.lastBreak ++ tail.breaks
    return (tail.text ++ ending, tail.after)

end LintReport.Yaml
