/-!
# Paths

A path is where it starts and the names along the way. Repeated slashes and `.` names do not count;
`..` stays, since where it leads depends on the files. Two leading slashes, and no more than two,
are kept apart from one. The rules that come with the program lie below a place of their own.

## Main definitions

* `Path`, `Path.parse`, `Path.text`.
* `Path.child`: the path of a name below another path.
* `Path.parent`, `Path.name`, `Path.suffix`.
-/

namespace LintReport

/-- Where a path starts. -/
inductive Path.Start
  /-- The working directory. -/
  | working
  /-- The top of the file system. -/
  | top
  /-- The top, written with two slashes. -/
  | doubledTop
  /-- The directory of the program itself. -/
  | package
deriving DecidableEq, Repr

/-- A path: its start and the names that lead from there. -/
structure Path where
  start : Path.Start := .working
  names : List String := []
deriving DecidableEq, Repr

namespace Path

/-- The characters between slashes. -/
def pieces (cs : List Char) : List (List Char) :=
  cs.foldr (fun c done =>
    match c, done with
    | '/', done => [] :: done
    | c, [] => [[c]]
    | c, piece :: rest => (c :: piece) :: rest) [[]]

/-- The start of a path, by its leading slashes. -/
def startOf : List Char → Start
  | '/' :: '/' :: '/' :: _ => .top
  | '/' :: '/' :: _ => .doubledTop
  | '/' :: _ => .top
  | _ => .working

/-- The path that a text means. -/
def parse (text : String) : Path where
  start := startOf text.toList
  names := ((pieces text.toList).map String.ofList).filter fun name =>
    !(name.isEmpty || name == ".")

/-- The text before the names of a path, which ends in a slash unless it is empty. -/
def Start.text : Start → String
  | .working => ""
  | .top => "/"
  | .doubledTop => "//"
  | .package => "<package>/"

/-- The text of a path. A path without a start and without names is `.`. -/
def text (p : Path) : String :=
  let s := p.start.text ++ "/".intercalate p.names
  if s.isEmpty then "." else s

instance : ToString Path := ⟨text⟩

/-- The path of a name below a path. -/
def child (p : Path) (name : String) : Path := { p with names := p.names ++ [name] }

/-- The path of several names below a path. -/
def descend (p : Path) (names : List String) : Path := { p with names := p.names ++ names }

/-- The path without its last name. -/
def parent (p : Path) : Path := { p with names := p.names.dropLast }

/-- The last name of a path. -/
def name (p : Path) : String := p.names.getLast?.getD ""

/-- The end of a name from its last point on. A point that is the first or the last character does
not count. -/
def suffixOf (name : List Char) : List Char :=
  let tail := name.reverse.takeWhile (· != '.')
  let before := name.length - tail.length
  if tail.length == 0 || before ≤ 1 then [] else '.' :: tail.reverse

/-- The suffix of the last name of a path. -/
def suffix (p : Path) : String := String.ofList (suffixOf p.name.toList)

end Path

end LintReport
