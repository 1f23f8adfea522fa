import LintReport.Yaml.Cursor

/-!
# Plain scalars

A plain scalar is a run of characters without quotes. It may go on over lines that are indented
deeper than the collection it stands in; a single line break between words becomes a space. It ends
before a colon or a number sign that stands beside a blank, and inside flow collections before their
marks.

## Main definitions

* `Yaml.plainRun`: the characters up to the next blank or end mark.
* `Yaml.plainGap`: what stands between two runs.
* `Yaml.plainScalar`: a whole plain scalar.
-/

namespace LintReport.Yaml

/-- Whether a plain scalar ends before a character, given the one after it. -/
def endsPlain (inFlow : Bool) (c next : Char) : Bool :=
  isGap c || (c == ':' && (isGap next || (inFlow && isFlowMark next))) ||
    (inFlow && (c == '?' || isFlowMark c))

/-- The leading characters up to the next blank or mark that ends a plain scalar. -/
def plainRun (inFlow : Bool) : List Char → List Char
  | [] => []
  | c :: rest =>
    if endsPlain inFlow c (rest.headD endMark) then [] else c :: plainRun inFlow rest

/-- What stands between two runs: its characters in the value, whether it breaks the line, and the
place after it. Without characters the scalar does not go on. -/
structure PlainGap where
  text : List Char
  breaksLine : Bool
  after : Cursor
deriving Repr

/-- How a line break and the empty lines after it stand in the value of a scalar: a single line feed
becomes a space, and otherwise the first is dropped. -/
def foldBreaks (first : Char) (more : List Char) : List Char :=
  if first != '\n' then first :: more else if more.isEmpty then [' '] else more

/-- The breaks of the empty lines at a place, after those in `done`, and the place after them and
the spaces of the next line. `none` at the separator of documents. -/
def emptyLines : Nat → List Char → Cursor → Option (List Char) × Cursor
  | 0, done, c => (some done, c)
  | budget + 1, done, c =>
    let c := c.skipSpaces
    match c.lineBreak? with
    | none => (some done, c)
    | some (b, c) => if c.atSeparator then (none, c) else emptyLines budget (done ++ [b]) c

/-- What stands between two runs at a place. -/
def plainGap (c : Cursor) : PlainGap :=
  let (spaces, c) := c.span (· == ' ')
  match c.lineBreak? with
  | none => ⟨spaces, false, c⟩
  | some (first, c) =>
    if c.atSeparator then ⟨[], true, c⟩
    else
      match emptyLines (c.rest.length + 1) [] c with
      | (none, c) => ⟨[], true, c⟩
      | (some more, c) => ⟨foldBreaks first more, true, c⟩

/-- A plain scalar with the place after it. -/
structure PlainScalar where
  text : List Char
  /-- Whether the scalar is followed by a line break. -/
  breaksLine : Bool
  after : Cursor
deriving Repr

/-- The rest of a plain scalar: `done` stands before it, and `gap` between that and the next run. In
block context the scalar goes on only in columns from `indent` on. -/
def plainRest (inFlow : Bool) (indent : Int) :
    Nat → List Char → List Char → Bool → Cursor → PlainScalar
  | 0, done, _, broken, c => ⟨done, broken, c⟩
  | budget + 1, done, gap, broken, c =>
    if c.peek == '#' then ⟨done, broken, c⟩
    else
      let run := plainRun inFlow c.rest
      if run.isEmpty then ⟨done, broken, c⟩
      else
        let done := done ++ gap ++ run
        let next := plainGap (c.drop run.length)
        if next.text.isEmpty || next.after.peek == '#' ||
            (!inFlow && decide ((next.after.column : Int) < indent)) then
          ⟨done, next.breaksLine, next.after⟩
        else plainRest inFlow indent budget done next.text next.breaksLine next.after

/-- The plain scalar at a place. -/
def plainScalar (inFlow : Bool) (indent : Int) (c : Cursor) : PlainScalar :=
  plainRest inFlow indent (c.rest.length + 1) [] [] false c

end LintReport.Yaml
