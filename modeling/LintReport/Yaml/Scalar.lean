import LintReport.Number.Binary64
import LintReport.Number.Numeral
import LintReport.Text.Blank
import LintReport.Text.Case
import LintReport.Yaml.Base64
import LintReport.Yaml.Fault
import LintReport.Yaml.Tag

/-!
# Values of scalars

The text of a scalar is read as its tag says. A plain scalar has got its tag from its form, so it
can always be read; one with a written tag may be refused.

## Main definitions

* `Scalar`: the values.
* `Scalar.read`: the value of a text under a tag.
* `Scalar.sameKey`: when two values are one key of a mapping.
-/

namespace LintReport.Yaml

/-- The value of a scalar. -/
inductive Scalar
  | null
  | bool (b : Bool)
  | int (i : Int)
  | float (x : Binary64)
  | str (s : String)
  | bytes (octets : List UInt8)
  | timestamp (t : Timestamp)
deriving DecidableEq, Repr

namespace Scalar

/-- The text without underscores. -/
def dropUnderscores (s : String) : List Char := s.toList.filter (· != '_')

/-- The sign of a number, and what follows it. A number has at least one character. -/
def splitSign : List Char → Except Fault (Bool × List Char)
  | [] => .error .emptyNumber
  | '-' :: rest => .ok (true, rest)
  | '+' :: rest => .ok (false, rest)
  | cs => .ok (false, cs)

/-- A number in a base, or a fault. -/
def numberIn (base : Nat) (cs : List Char) : Except Fault Int :=
  match Numeral.int? base (String.ofList cs) with
  | some i => .ok i
  | none => .error .badNumber

/-- A number written as parts in base sixty. -/
def sexagesimal (parts : List Int) : Int := parts.foldl (fun n part => 60 * n + part) 0

/-- The integer of a text. -/
def readInt (s : String) : Except Fault Int := do
  let (negative, cs) ← splitSign (dropUnderscores s)
  let i ←
    match cs with
    | ['0'] => pure 0
    | '0' :: 'b' :: rest => numberIn 2 rest
    | '0' :: 'x' :: rest => numberIn 16 rest
    | '0' :: _ => numberIn 8 cs
    | [] => throw .emptyNumber
    | _ =>
      if cs.contains ':' then do
        let parts ← (Text.splitChars ':' cs).mapM (numberIn 10)
        pure (sexagesimal parts)
      else numberIn 10 cs
  return if negative then -i else i

/-- The sum of parts in base sixty, the last one first, where `unit` is the value of one in the
first of them. -/
def sexagesimalFloat (total : Binary64) (unit : Int) : List Binary64 → Except Fault Binary64
  | [] => .ok total
  | part :: rest =>
    match Binary64.ofInt? unit with
    | none => .error .numberOverflow
    | some u => sexagesimalFloat (total.add (part.mul u)) (60 * unit) rest

/-- A decimal, or a fault. -/
def decimal (cs : List Char) : Except Fault Binary64 :=
  match Numeral.float? (String.ofList cs) with
  | some x => .ok x
  | none => .error .badNumber

/-- The binary64 number of a text. -/
def readFloat (s : String) : Except Fault Binary64 := do
  let lowered := (Text.lower (String.ofList (dropUnderscores s))).toList
  let (negative, cs) ← splitSign lowered
  let x ←
    if cs == ".inf".toList then pure (.infinity false)
    else if cs == ".nan".toList then return .nan
    else if cs.contains ':' then do
      let parts ← (Text.splitChars ':' cs).mapM decimal
      sexagesimalFloat (.zero false) 1 parts.reverse
    else decimal cs
  return if negative then x.neg else x

/-- The Boolean of a text. -/
def readBool (s : String) : Except Fault Bool :=
  match Tag.boolWords.lookup (Text.lower s) with
  | some b => .ok b
  | none => .error .badWord

/-- The timestamp of a text. -/
def readTimestamp (s : String) : Except Fault Timestamp :=
  match Timestamp.read? (Tag.withoutFinalBreak s.toList) with
  | none => .error .noDate
  | some t => if t.isValid then .ok t else .error .badNumber

/-- The octets of a text. -/
def readBytes (s : String) : Except Fault (List UInt8) :=
  if s.toList.all (·.toNat < 128) then
    match Base64.decode? s.toList with
    | some octets => .ok octets
    | none => .error .malformed
  else .error .malformed

/-- The value of a text under the tag of a scalar; other tags are refused. -/
def read (tag : Tag) (s : String) : Except Fault Scalar :=
  match tag with
  | .null => .ok .null
  | .bool => (readBool s).map .bool
  | .int => (readInt s).map .int
  | .float => (readFloat s).map .float
  | .binary => (readBytes s).map .bytes
  | .timestamp => (readTimestamp s).map .timestamp
  | .str => .ok (.str s)
  | _ => .error .malformed

/-! ### Keys -/

/-- The integer that a value counts as when keys are compared. -/
def integer? : Scalar → Option Int
  | bool b => some (if b then 1 else 0)
  | int i => some i
  | float x => x.toInt?
  | _ => none

/-- Whether two values are the same key of a mapping. Numbers are the same key when they are equal,
whatever their kinds. -/
def sameKey (a b : Scalar) : Bool :=
  match a.integer?, b.integer? with
  | some i, some j => i == j
  | _, _ => a == b

end Scalar

end LintReport.Yaml
