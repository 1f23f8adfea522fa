import LintReport.Json.Basic
import LintReport.Json.Fault
import LintReport.Number.Numeral
import LintReport.Text.Hex
import LintReport.Text.Quoted

/-!
# Reading JSON

The reader follows the grammar of JSON, with three numbers of its own: `NaN`, `Infinity` and
`-Infinity`. White space is space, tab, line feed and carriage return. Every reader returns
what it read together with the characters that are left, so the place of a fault is known by their
number. There is room for a limited number of open brackets, and for integers of a limited number of
digits.

## Main definitions

* `Json.parse`: the value that a text holds, or the fault that comes first.
* `Json.value`, `Json.elements`, `Json.members`: the mutually recursive part, bounded by a budget.
* `Json.depthLimit`: how many brackets may be open at once.
* `Json.stringUnits`, `Json.joinUnits`: the characters of a string.
* `Json.number?`: integers and binary64 numbers.
-/

namespace LintReport.Json

/-- A fault at the place where these characters are left. -/
def fail {α : Type} (cause : Cause) (rest : List Char) : Except Fault α :=
  .error (.refused cause rest.length)

/-- The four white space characters of JSON. -/
def isSpace (c : Char) : Bool := c == ' ' || c == '\t' || c == '\n' || c == '\r'

/-- The characters from the first that is not white space. -/
def skipSpace (cs : List Char) : List Char := cs.dropWhile isSpace

/-! ### Strings -/

/-- One piece of a string: a character, or the number of a code escape. -/
inductive StringUnit
  | char (c : Char)
  | code (n : Nat)
deriving DecidableEq, Repr

/-- The character that a one-letter escape stands for. -/
def shortEscape? (c : Char) : Option Char :=
  if c == Text.doubleQuote || c == Text.backslash || c == '/' then some c
  else if c == 'b' then some '\x08'
  else if c == 'f' then some '\x0c'
  else if c == 'n' then some '\n'
  else if c == 'r' then some '\r'
  else if c == 't' then some '\t'
  else none

/-- The pieces of a string whose opening quote has been read, in order after those in `done`, which
are kept last first. `opened` is the number of characters left at the opening quote. A code escape
is four digits with at least one more character after them. -/
def stringUnits (opened : Nat) (done : List StringUnit) :
    List Char → Except Fault (List StringUnit × List Char)
  | [] => .error (.refused .openString opened)
  | c :: rest =>
    if c == Text.doubleQuote then .ok (done.reverse, rest)
    else if c == Text.backslash then
      match rest with
      | [] => .error (.refused .openString opened)
      | e :: after =>
        if e == 'u' then
          match after with
          | d₁ :: d₂ :: d₃ :: d₄ :: next :: more =>
            match Text.hexNumber? [d₁, d₂, d₃, d₄] with
            | some n => stringUnits opened (.code n :: done) (next :: more)
            | none => fail .codeEscape (e :: after)
          | _ => fail .codeEscape (e :: after)
        else
          match shortEscape? e with
          | some meant => stringUnits opened (.char meant :: done) after
          | none => fail .escape (c :: e :: after)
    else if c.toNat < 0x20 then fail .control (c :: rest)
    else stringUnits opened (.char c :: done) rest

/-- Whether a code is the first half of a surrogate pair. -/
def isHighSurrogate (n : Nat) : Bool := 0xD800 ≤ n && n < 0xDC00

/-- Whether a code is the second half of a surrogate pair. -/
def isLowSurrogate (n : Nat) : Bool := 0xDC00 ≤ n && n < 0xE000

/-- The character of a single code. Half of a surrogate pair is no character: it becomes the
replacement character here. A reader that keeps the half as it is leaves a string that can neither
be printed nor percent-encoded, so what is said of strings that were read is about texts without
such halves. -/
def charOfCode (n : Nat) : Char := if n.isValidChar then Char.ofNat n else '\uFFFD'

/-- The characters of the pieces of a string. Two codes that form a surrogate pair are one
character. -/
def joinUnits : List StringUnit → List Char
  | [] => []
  | .char c :: rest => c :: joinUnits rest
  | .code high :: .code low :: rest =>
    if isHighSurrogate high && isLowSurrogate low then
      Char.ofNat (0x10000 + (high - 0xD800) * 0x400 + (low - 0xDC00)) :: joinUnits rest
    else charOfCode high :: joinUnits (.code low :: rest)
  | .code n :: rest => charOfCode n :: joinUnits rest

/-- A string whose opening quote has been read. -/
def stringBody (cs : List Char) : Except Fault (String × List Char) := do
  let (units, rest) ← stringUnits (cs.length + 1) [] cs
  return (String.ofList (joinUnits units), rest)

/-! ### Numbers and words -/

/-- The number written by decimal digits. -/
def natOfDigits (cs : List Char) : Nat := cs.foldl (fun n c => 10 * n + (c.toNat - 48)) 0

/-- A run of digits and what follows it. -/
def splitDigits (cs : List Char) : List Char × List Char :=
  (cs.takeWhile Char.isDigit, cs.dropWhile Char.isDigit)

/-- The digits before the point: a single zero, or a run that does not start with one. -/
def wholeDigits? : List Char → Option (List Char × List Char)
  | [] => none
  | c :: rest =>
    if c == '0' then some ([c], rest)
    else if c.isDigit then some (splitDigits (c :: rest))
    else none

/-- The digits after a point, if at least one follows it. -/
def fractionDigits? : List Char → Option (List Char × List Char)
  | '.' :: d :: rest => if d.isDigit then some (splitDigits (d :: rest)) else none
  | _ => none

/-- A power of ten: `e` or `E`, an optional sign and at least one digit. -/
def power? : List Char → Option (Int × List Char)
  | [] => none
  | mark :: rest =>
    if mark == 'e' || mark == 'E' then
      let (negative, unsigned) :=
        match rest with
        | '-' :: more => (true, more)
        | '+' :: more => (false, more)
        | more => (false, more)
      let (digits, after) := splitDigits unsigned
      if digits.isEmpty then none
      else
        let n : Int := natOfDigits digits
        some (if negative then -n else n, after)
    else none

/-- An unsigned number with the sign that stood before it. -/
def unsignedNumber? (negative : Bool) (cs : List Char) : Option (Json × List Char) := do
  let (whole, rest) ← wholeDigits? cs
  match fractionDigits? rest with
  | some (fraction, rest) =>
    let (power, rest) := (power? rest).getD (0, rest)
    return (.float (.ofDecimal negative (natOfDigits (whole ++ fraction))
      (power - fraction.length)), rest)
  | none =>
    match power? rest with
    | some (power, rest) => return (.float (.ofDecimal negative (natOfDigits whole) power), rest)
    | none =>
      let n : Int := natOfDigits whole
      return (.int (if negative then -n else n), rest)

/-- A number at the start of the characters. -/
def number? : List Char → Option (Json × List Char)
  | '-' :: rest => unsignedNumber? true rest
  | cs => unsignedNumber? false cs

/-- The values that are written as words. -/
def words : List (String × Json) :=
  [("null", .null), ("true", .bool true), ("false", .bool false), ("NaN", .float .nan),
    ("Infinity", .float (.infinity false)), ("-Infinity", .float (.infinity true))]

/-- A word at the start of the characters. -/
def word? (cs : List Char) : Option (Json × List Char) :=
  words.findSome? fun (word, v) =>
    if word.toList.isPrefixOf cs then some (v, cs.drop word.toList.length) else none

/-! ### Values -/

/-- How many brackets may be open at once: the reader calls itself for each, and the calls of a
program may be a thousand deep. The calls around the reader count as well, so this is the number
that is left to it below a few of them. -/
def depthLimit : Nat := 990

/-- Whether a character opens an array or an object. -/
def isOpening (c : Char) : Bool := c == '[' || c == '\x7b'

/-- A word or a number that was found, unless it is an integer with too many digits. -/
def withinDigits : Json × List Char → Except Fault (Json × List Char)
  | (.int i, rest) =>
    if Numeral.isShort i then .ok (.int i, rest) else .error (.beyond .digits)
  | found => .ok found

mutual

/-- A value at the start of the characters. `room` is the number of brackets that may still be
opened. -/
def value : Nat → Nat → List Char → Except Fault (Json × List Char)
  | 0, _, cs => fail .value cs
  | _ + 1, _, [] => fail .value []
  | budget + 1, room, c :: rest =>
    if c == Text.doubleQuote then do
      let (s, rest) ← stringBody rest
      return (.str s, rest)
    else if isOpening c && room == 0 then .error (.beyond .nesting)
    else if c == '[' then
      match skipSpace rest with
      | ']' :: rest => .ok (.arr [], rest)
      | rest => elements budget (room - 1) [] rest
    else if c == '\x7b' then
      match skipSpace rest with
      | '\x7d' :: rest => .ok (.obj [], rest)
      | rest => members budget (room - 1) [] rest
    else
      match word? (c :: rest) <|> number? (c :: rest) with
      | some found => withinDigits found
      | none => fail .value (c :: rest)

/-- The elements of an array from the next one to the closing bracket, after those in `done`, which
are kept last first. -/
def elements : Nat → Nat → List Json → List Char → Except Fault (Json × List Char)
  | 0, _, _, cs => fail .value cs
  | budget + 1, room, done, cs => do
    let (v, rest) ← value budget room cs
    match skipSpace rest with
    | ']' :: rest => .ok (.arr (v :: done).reverse, rest)
    | ',' :: rest => elements budget room (v :: done) (skipSpace rest)
    | rest => fail .comma rest

/-- The members of an object from the next one to the closing brace, added to those in `done`. -/
def members : Nat → Nat → List (String × Json) → List Char → Except Fault (Json × List Char)
  | 0, _, _, cs => fail .key cs
  | _ + 1, _, _, [] => fail .key []
  | budget + 1, room, done, c :: rest =>
    if c == Text.doubleQuote then do
      let (key, rest) ← stringBody rest
      match skipSpace rest with
      | ':' :: rest =>
        let (v, rest) ← value budget room (skipSpace rest)
        match skipSpace rest with
        | '\x7d' :: rest => .ok (.obj (insert key v done), rest)
        | ',' :: rest => members budget room (insert key v done) (skipSpace rest)
        | rest => fail .comma rest
      | rest => fail .colon rest
    else fail .key (c :: rest)

end

/-- The value that a list of characters holds, white space around it aside. Reading an element takes
at least one character for every two units of the budget. -/
def parseChars (cs : List Char) : Except Fault Json :=
  match cs with
  | '\uFEFF' :: _ => .error (.refused .byteOrderMark cs.length)
  | _ =>
    match value (2 * cs.length + 2) depthLimit (skipSpace cs) with
    | .error fault => .error fault
    | .ok (v, rest) =>
      match skipSpace rest with
      | [] => .ok v
      | rest => fail .extra rest

/-- The value that a text holds. -/
def parse (s : String) : Except ParseFault Json :=
  (parseChars s.toList).mapError (Fault.locate s.toList)

end LintReport.Json
