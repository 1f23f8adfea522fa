import LintReport.Yaml.Calendar

/-!
# Tags of nodes

A tag says what a node is. A plain scalar without a tag is given one by its form: words for the null
value and the Booleans, integers in four bases and in base sixty, decimals, and dates.

## Main definitions

* `Tag`, `Tag.ofText`: the tags that have a meaning.
* `Tag.ofPlain`: the tag of a plain scalar.
-/

namespace LintReport.Yaml

/-- What a node is. -/
inductive Tag
  | null
  | bool
  | int
  | float
  | binary
  | timestamp
  | orderedMap
  | pairs
  | set
  | str
  | seq
  | map
  /-- The key that merges another mapping into its own. -/
  | merge
  /-- The key of the default value of a mapping. -/
  | value
  /-- A tag without a meaning here. -/
  | other
deriving DecidableEq, Repr

namespace Tag

/-- The text before the names of the common tags. -/
def commonStart : String := "tag:yaml.org,2002:"

/-- The common tags by name. -/
def common : List (String × Tag) :=
  [("null", null), ("bool", bool), ("int", int), ("float", float), ("binary", binary),
    ("timestamp", timestamp), ("omap", orderedMap), ("pairs", pairs), ("set", set), ("str", str),
    ("seq", seq), ("map", map), ("merge", merge), ("value", value)]

/-- The tag that a text names. -/
def ofText (s : String) : Tag :=
  match common.find? fun (name, _) => commonStart ++ name == s with
  | some (_, tag) => tag
  | none => other

/-! ### The forms of plain scalars -/

/-- The words for Booleans, with their values. -/
def boolWords : List (String × Bool) :=
  [("yes", true), ("no", false), ("true", true), ("false", false), ("on", true), ("off", false)]

/-- The spellings of a word that count: all small, with a capital, all capitals. -/
def spellings (word : String) : List (List Char) :=
  let cs := word.toList
  [cs, (cs.take 1).map Char.toUpper ++ cs.drop 1, cs.map Char.toUpper]

/-- Whether a scalar is a word for a Boolean. -/
def isBoolForm (cs : List Char) : Bool :=
  boolWords.any fun (word, _) => (spellings word).contains cs

/-- Whether a scalar is a word for the null value. The empty scalar is one. -/
def isNullForm (cs : List Char) : Bool :=
  cs.isEmpty || cs == ['~'] || (spellings "null").contains cs

/-- What follows an optional sign. -/
def afterSign : List Char → List Char
  | '-' :: rest => rest
  | '+' :: rest => rest
  | cs => cs

/-- Whether there is at least one character and all are of a class or underscores. -/
def isRun (p : Char → Bool) (cs : List Char) : Bool :=
  !cs.isEmpty && cs.all fun c => p c || c == '_'

/-- A digit below a base of at most ten. -/
def isDigitBelow (base : Nat) (c : Char) : Bool := c.isDigit && c.toNat - 48 < base

/-- A hexadecimal digit. -/
def isHexDigit (c : Char) : Bool := c.isDigit || ('a' ≤ c && c ≤ 'f') || ('A' ≤ c && c ≤ 'F')

/-- The digits up to the first that is neither a digit nor an underscore, if the first is a digit,
and what follows them. -/
def leadingDigits? (cs : List Char) : Option (List Char × List Char) :=
  match cs with
  | [] => none
  | c :: _ =>
    if c.isDigit then
      let isPart (c : Char) := c.isDigit || c == '_'
      some (cs.takeWhile isPart, cs.dropWhile isPart)
    else none

/-- What follows as many groups of a colon and a number below sixty as there are, and whether there
is at least one. -/
def sixtieths : Bool → List Char → Bool × List Char
  | some?, ':' :: a :: b :: rest =>
    if isDigitBelow 6 a && b.isDigit then sixtieths true rest
    else if a.isDigit then sixtieths true (b :: rest)
    else (some?, ':' :: a :: b :: rest)
  | some?, [':', a] => if a.isDigit then (true, []) else (some?, [':', a])
  | some?, cs => (some?, cs)

/-- Whether a scalar has the form of an integer. -/
def isIntForm (cs : List Char) : Bool :=
  match afterSign cs with
  | '0' :: 'b' :: rest => isRun (isDigitBelow 2) rest
  | '0' :: 'x' :: rest => isRun isHexDigit rest
  | ['0'] => true
  | '0' :: rest => isRun (isDigitBelow 8) rest
  | unsigned =>
    match leadingDigits? unsigned with
    | none => false
    | some (_, []) => true
    | some (_, rest) => sixtieths false rest == (true, [])

/-- Whether what follows the digits of a fraction is an exponent: `e`, a sign and digits. -/
def isExponent : List Char → Bool
  | mark :: sign :: digits =>
    (mark == 'e' || mark == 'E') && (sign == '+' || sign == '-') && !digits.isEmpty &&
      digits.all Char.isDigit
  | _ => false

/-- Whether what follows a point is digits and perhaps an exponent. -/
def isFraction (cs : List Char) : Bool :=
  let rest := cs.dropWhile fun c => c.isDigit || c == '_'
  rest.isEmpty || isExponent rest

/-- Whether what follows an optional sign is a decimal: digits and a point, or numbers below sixty
and a point. -/
def isDecimalForm (unsigned : List Char) : Bool :=
  match leadingDigits? unsigned with
  | none => false
  | some (_, '.' :: rest) => isFraction rest
  | some (_, rest) =>
    match sixtieths false rest with
    | (true, '.' :: rest) => rest.all fun c => c.isDigit || c == '_'
    | _ => false

/-- Whether a scalar has the form of a decimal, an infinity or not-a-number. -/
def isFloatForm (cs : List Char) : Bool :=
  let special (word : String) (cs : List Char) :=
    match cs with
    | '.' :: rest =>
      rest == word.toList || rest == word.toList.map Char.toUpper ||
        (word == "nan" && rest == "NaN".toList) || (word == "inf" && rest == "Inf".toList)
    | _ => false
  let startsWithFraction :=
    match cs with
    | '.' :: d :: rest => d.isDigit && isFraction rest
    | _ => false
  isDecimalForm (afterSign cs) || startsWithFraction || special "inf" (afterSign cs) ||
    special "nan" cs

/-- Whether a scalar has the form of a date, which needs two digits for month and day unless a time
follows. -/
def isTimestampForm (cs : List Char) : Bool :=
  match Timestamp.read? cs with
  | none => false
  | some t => t.time.isSome || cs.length == 10

/-- A scalar without one line feed at its end. A form still fits a scalar that goes on with a single
line feed. -/
def withoutFinalBreak (cs : List Char) : List Char :=
  if cs.getLast? == some '\n' && 1 < cs.length then cs.dropLast else cs

/-- The tag of a plain scalar. -/
def ofPlain (s : String) : Tag :=
  let cs := withoutFinalBreak s.toList
  if isBoolForm cs then bool
  else if isFloatForm cs then float
  else if isIntForm cs then int
  else if cs == ['<', '<'] then merge
  else if isNullForm cs then null
  else if isTimestampForm cs then timestamp
  else if cs == ['='] then value
  else if cs == ['!'] || cs == ['&'] || cs == ['*'] then other
  else str

end Tag

end LintReport.Yaml
