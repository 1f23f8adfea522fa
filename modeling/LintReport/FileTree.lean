import LintReport.Path
import LintReport.Text.Quoted

/-!
# Files

The files that the program can see: which locations hold directories, and which hold files with what
octets. Every operation takes a path, follows its names from one directory to the next, and either
returns a new tree or a fault that names the path.

## Main definitions

* `FileTree`, `FileTree.Location`, `FileTree.Entry`.
* `FileFault`: what can go wrong, with its words.
* `FileTree.resolve`: the location that a path leads to.
* `FileTree.look`: what there is at a path, if anything.
* `FileTree.read`, `FileTree.write`, `FileTree.append`, `FileTree.makeDirectory`,
  `FileTree.makeDirectories`, `FileTree.remove`.
-/

namespace LintReport

/-- The kinds of faults that the file system reports. -/
inductive FileFault.Kind
  | notFound
  | argumentsTooLong
  | badFormat
  | permission
  | exists
  | notDirectory
  | isDirectory
  | nameTooLong
  /-- A null character, with which the system cannot even be asked. -/
  | nullCharacter
  /-- Directories one inside the other without end, or too many of them to follow. -/
  | tooDeep
deriving DecidableEq, Repr

/-- The number of a kind, unless the fault was met before the system was asked. -/
def FileFault.Kind.number? : FileFault.Kind → Option Nat
  | notFound => some 2
  | argumentsTooLong => some 7
  | badFormat => some 8
  | permission => some 13
  | .exists => some 17
  | notDirectory => some 20
  | isDirectory => some 21
  | nameTooLong => some 36
  | nullCharacter => none
  | tooDeep => none

/-- The words for a kind. -/
def FileFault.Kind.words : FileFault.Kind → String
  | notFound => "No such file or directory"
  | argumentsTooLong => "Argument list too long"
  | badFormat => "Exec format error"
  | permission => "Permission denied"
  | .exists => "File exists"
  | notDirectory => "Not a directory"
  | isDirectory => "Is a directory"
  | nameTooLong => "File name too long"
  | nullCharacter => "embedded null byte"
  | tooDeep => "maximum recursion depth exceeded"

/-- What the file system reports about a path, given as it was written. -/
structure FileFault where
  kind : FileFault.Kind
  path : String
deriving DecidableEq, Repr

/-- The words for a fault. -/
def FileFault.message (fault : FileFault) : String :=
  match fault.kind.number? with
  | some number => s!"[Errno {number}] {fault.kind.words}: {Text.quote fault.path}"
  | none => fault.kind.words

/-- Whether the system itself reports a fault. -/
def FileFault.isReported (fault : FileFault) : Bool := fault.kind.number?.isSome

namespace FileTree

/-- The trees that locations belong to. -/
inductive Place
  | working
  | top
  | package
deriving DecidableEq, Repr

/-- A location: a place, and the names of directories down to the entry. Unlike a path, it never
goes up. -/
structure Location where
  place : Place
  names : List String
deriving DecidableEq, Repr

/-- What a location holds. -/
inductive Entry
  | directory
  | file (content : List UInt8) (executable : Bool)
deriving DecidableEq, Repr

namespace Location

/-- The location of a name in a directory. -/
def child (l : Location) (name : String) : Location := ⟨l.place, l.names ++ [name]⟩

/-- The directory that holds a location. A place is its own parent. -/
def parent (l : Location) : Location := ⟨l.place, l.names.dropLast⟩

/-- Whether a location is another one or lies below it. -/
def isWithin (l top : Location) : Bool := l.place == top.place && top.names.isPrefixOf l.names

end Location

end FileTree

/-- The locations that are in use, in the order in which they were made. -/
structure FileTree where
  entries : List (FileTree.Location × FileTree.Entry) := []
deriving Repr

namespace FileTree

/-- What a location holds. The places themselves are directories. -/
def entry? (t : FileTree) (l : Location) : Option Entry :=
  if l.names.isEmpty then some .directory
  else (t.entries.find? fun e => e.1 == l).map (·.2)

/-- Entries after one location has got a new content. -/
def setEntry (l : Location) (e : Entry) : List (Location × Entry) → List (Location × Entry)
  | [] => [(l, e)]
  | (k, old) :: rest => if k == l then (k, e) :: rest else (k, old) :: setEntry l e rest

/-- The tree after one location has got a new content. -/
def put (t : FileTree) (l : Location) (e : Entry) : FileTree := ⟨setEntry l e t.entries⟩

/-- The tree without a location and everything below it. -/
def erase (t : FileTree) (l : Location) : FileTree :=
  ⟨t.entries.filter fun e => !e.1.isWithin l⟩

/-! ### From paths to locations -/

/-- The location that a path starts from. -/
def startLocation : Path.Start → Location
  | .working => ⟨.working, []⟩
  | .top => ⟨.top, []⟩
  | .doubledTop => ⟨.top, []⟩
  | .package => ⟨.package, []⟩

/-- How many octets a name may have. -/
def nameLimit : Nat := 255

/-- How many octets the text of a path has to stay below. -/
def pathLimit : Nat := 4096

/-- The location that a name leads to from a location, which has to be a directory. -/
def step (t : FileTree) (l : Location) (name : String) : Except FileFault.Kind Location :=
  match t.entry? l with
  | none => .error .notFound
  | some (.file ..) => .error .notDirectory
  | some .directory =>
    if name == ".." then .ok l.parent
    else if nameLimit < name.utf8ByteSize then .error .nameTooLong
    else .ok (l.child name)

/-- The location that a path leads to. There may be nothing there. -/
def resolve (t : FileTree) (p : Path) : Except FileFault.Kind Location :=
  if p.names.any fun name => name.toList.contains '\x00' then .error .nullCharacter
  else if pathLimit ≤ p.text.utf8ByteSize then .error .nameTooLong
  else p.names.foldlM t.step (startLocation p.start)

/-- What there is at a path. -/
def stat (t : FileTree) (p : Path) : Except FileFault.Kind (Location × Entry) := do
  let l ← t.resolve p
  match t.entry? l with
  | none => .error .notFound
  | some e => .ok (l, e)

/-- Whether there is a directory at a path. Every fault means that there is none. -/
def isDirectory (t : FileTree) (p : Path) : Bool :=
  match t.stat p with
  | .ok (_, .directory) => true
  | _ => false

/-- What there is at a path, or nothing if it leads nowhere. A path that is too long, or a name that
is too long for the directory it is looked for in, is a fault. -/
def look (t : FileTree) (p : Path) : Except FileFault (Option (Location × Entry)) :=
  match t.stat p with
  | .ok found => .ok (some found)
  | .error .nameTooLong => .error ⟨.nameTooLong, p.text⟩
  | .error _ => .ok none

/-- Whether there is a directory at a path that can be looked up. -/
def hasDirectory (t : FileTree) (p : Path) : Except FileFault Bool :=
  return match ← t.look p with
    | some (_, .directory) => true
    | _ => false

/-- Whether there is a file at a path that can be looked up. -/
def hasFile (t : FileTree) (p : Path) : Except FileFault Bool :=
  return match ← t.look p with
    | some (_, .file ..) => true
    | _ => false

/-- Whether there is anything at a path. -/
def pathExists (t : FileTree) (p : Path) : Bool := (t.stat p).isOk

/-- The names in a directory, in the order in which they were made. -/
def namesIn (t : FileTree) (l : Location) : List String :=
  t.entries.filterMap fun (k, _) =>
    match k.names.getLast? with
    | some name => if k.parent == l then some name else none
    | none => none

/-! ### Paths as texts -/

/-- Whether a text asks for a directory: it ends in a slash, perhaps with a point behind it. -/
def asksDirectory (text : String) : Bool :=
  match (Path.pieces text.toList).getLast? with
  | some [] => true
  | some ['.'] => true
  | _ => false

/-- What there is at a path that is given as a text. The empty text leads nowhere, and a file is not
found by a text that asks for a directory. -/
def statText (t : FileTree) (text : String) : Except FileFault.Kind (Location × Entry) :=
  if text.isEmpty then .error .notFound
  else if pathLimit ≤ text.utf8ByteSize then .error .nameTooLong
  else
    match t.stat (Path.parse text) with
    | .ok (l, .file content executable) =>
      if asksDirectory text then .error .notDirectory else .ok (l, .file content executable)
    | found => found

/-! ### Operations -/

/-- The octets of the file at a path. -/
def read (t : FileTree) (p : Path) : Except FileFault.Kind (List UInt8) := do
  match ← t.stat p with
  | (_, .directory) => .error .isDirectory
  | (_, .file content _) => .ok content

/-- The tree after a file has been opened for writing at a path and its content changed. -/
def modify (t : FileTree) (p : Path) (change : List UInt8 → List UInt8) :
    Except FileFault.Kind FileTree := do
  let l ← t.resolve p
  match t.entry? l with
  | some .directory => .error .isDirectory
  | some (.file content executable) => .ok (t.put l (.file (change content) executable))
  | none =>
    match t.entry? l.parent with
    | some .directory => .ok (t.put l (.file (change []) false))
    | some (.file ..) => .error .notDirectory
    | none => .error .notFound

/-- The tree after a file has been written at a path. -/
def write (t : FileTree) (p : Path) (content : List UInt8) : Except FileFault.Kind FileTree :=
  t.modify p fun _ => content

/-- The tree after octets have been added to the file at a path. -/
def append (t : FileTree) (p : Path) (content : List UInt8) : Except FileFault.Kind FileTree :=
  t.modify p (· ++ content)

/-- The tree after a directory has been made at a path. -/
def makeDirectory (t : FileTree) (p : Path) : Except FileFault.Kind FileTree := do
  let l ← t.resolve p
  match t.entry? l with
  | some _ => .error .exists
  | none => .ok (t.put l .directory)

/-- The tree after a location and everything below it have been removed. -/
def remove (t : FileTree) (p : Path) : FileTree :=
  match t.resolve p with
  | .ok l => t.erase l
  | .error _ => t

end FileTree

end LintReport
