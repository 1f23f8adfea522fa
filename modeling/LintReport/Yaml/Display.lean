import LintReport.Number.Shortest
import LintReport.Text.Collection
import LintReport.Text.Quoted
import LintReport.Yaml.Value

/-!
# The text of YAML values

Where a text is wanted and the value is something else, the value is shown as text. Inside a
collection, strings are quoted and dates are written by their parts. A collection that holds itself
is shown as dots at the inner place. An integer with too many decimal digits cannot be shown, and
neither can what holds one.

## Main definitions

* `Scalar.text?`, `Scalar.quoted?`: a scalar alone and inside a collection.
* `Value.text?`, `Value.quoted?`: the same for the node of a document.
* `Value.pairText?`: a pair of nodes.
-/

namespace LintReport.Yaml

/-- A number with at least a given number of digits. -/
def paddedText (width n : Nat) : String := String.ofList (Binary64.padded width n)

namespace Zone

/-- The distance from universal time in minutes. -/
def minutes : Zone → Int
  | utc => 0
  | offset negative hours minutes =>
    let total : Int := hours * 60 + minutes
    if negative then -total else total

/-- A zone after a time. -/
def text (z : Zone) : String :=
  let total := z.minutes.natAbs
  (if z.minutes < 0 then "-" else "+") ++ paddedText 2 (total / 60) ++ ":" ++
    paddedText 2 (total % 60)

/-- A zone written by its parts. A negative distance is a day less and a number of seconds more. -/
def quoted (z : Zone) : String :=
  let seconds := z.minutes * 60
  if seconds == 0 then "datetime.timezone.utc"
  else
    let span :=
      if seconds < 0 then s!"days=-1, seconds={86400 + seconds}" else s!"seconds={seconds}"
    s!"datetime.timezone(datetime.timedelta({span}))"

end Zone

namespace Timestamp

/-- A date by itself. -/
def dateText (t : Timestamp) : String :=
  paddedText 4 t.year ++ "-" ++ paddedText 2 t.month ++ "-" ++ paddedText 2 t.day

/-- A date and its time. -/
def text (t : Timestamp) : String :=
  match t.time with
  | none => t.dateText
  | some c =>
    t.dateText ++ " " ++ paddedText 2 c.hour ++ ":" ++ paddedText 2 c.minute ++ ":" ++
      paddedText 2 c.second ++
      (if c.microsecond == 0 then "" else "." ++ paddedText 6 c.microsecond) ++
      (c.zone.map Zone.text).getD ""

/-- A date and its time written by their parts. Seconds and their fractions are left out where they
are zero. -/
def quoted (t : Timestamp) : String :=
  let date := s!"{t.year}, {t.month}, {t.day}"
  match t.time with
  | none => s!"datetime.date({date})"
  | some c =>
    let fraction := if c.microsecond == 0 then "" else s!", {c.microsecond}"
    let seconds :=
      if c.second == 0 && c.microsecond == 0 then "" else s!", {c.second}" ++ fraction
    let zone := match c.zone with
      | none => ""
      | some z => ", tzinfo=" ++ z.quoted
    s!"datetime.datetime({date}, {c.hour}, {c.minute}{seconds}{zone})"

end Timestamp

namespace Scalar

/-- A scalar inside a collection. -/
def quoted? : Scalar → Option String
  | null => some Text.nullWord
  | bool b => some (Text.boolWord b)
  | int i => if Numeral.isShort i then some (toString i) else none
  | float x => some (x.toText Binary64.Layout.plain)
  | str s => some (Text.quote s)
  | bytes octets => some (Text.quoteBytes octets)
  | timestamp t => some t.quoted

/-- A scalar alone. -/
def text? : Scalar → Option String
  | str s => some s
  | timestamp t => some t.text
  | s => s.quoted?

end Scalar

namespace Value

/-- Both parts of a pair, if both can be shown. -/
def bothShown (shown : NodeId → Option String) (pair : NodeId × NodeId) :
    Option (String × String) := do
  return (← shown pair.1, ← shown pair.2)

/-- A node inside a collection. `outer` are the collections that it stands in. -/
def quotedWithin? (v : Value) (outer : List NodeId) : Nat → NodeId → Option String
  | 0, _ => some ""
  | budget + 1, id =>
    let inner := v.quotedWithin? (id :: outer) budget
    let isOpen := outer.contains id
    match v.at? id with
    | none => some ""
    | some (.scalar s) => s.quoted?
    | some (.list items) =>
      if isOpen then some "[...]" else (items.mapM inner).map Text.listText
    | some (.pairs items) =>
      if isOpen then some "[...]"
      else (items.mapM (bothShown inner)).map fun pairs =>
        Text.listText (pairs.map fun (a, b) => Text.pairText a b)
    | some (.map ms) =>
      if isOpen then some "\x7b...\x7d" else (ms.mapM (bothShown inner)).map Text.mapText
    | some (.set ms) => if isOpen then some "set(...)" else (ms.mapM inner).map Text.setText

/-- A node inside a collection. No path goes through more collections than there are nodes. -/
def quoted? (v : Value) (id : NodeId) : Option String :=
  v.quotedWithin? [] (v.data.length + 1) id

/-- A node alone. -/
def text? (v : Value) (id : NodeId) : Option String :=
  match v.at? id with
  | some (.scalar s) => s.text?
  | _ => v.quoted? id

/-- A pair of an ordered mapping alone. -/
def pairText? (v : Value) (pair : NodeId × NodeId) : Option String :=
  (bothShown v.quoted? pair).map fun (a, b) => Text.pairText a b

end Value

end LintReport.Yaml
