import LintReport.Number.Power

/-!
# Dates and times

## Main definitions

* `Timestamp`: a date, or a date with a time and a zone.
* `Timestamp.read?`: the timestamp that a text is written as.
* `Timestamp.isValid`: whether the calendar and the clock have it.
-/

namespace LintReport.Yaml

/-- A zone of the clock. -/
inductive Zone
  /-- Universal time. -/
  | utc
  /-- A distance from universal time. -/
  | offset (negative : Bool) (hours minutes : Nat)
deriving DecidableEq, Repr

/-- A time of the day. -/
structure ClockTime where
  hour : Nat
  minute : Nat
  second : Nat
  microsecond : Nat := 0
  zone : Option Zone := none
deriving DecidableEq, Repr

/-- A date, with a time or without. -/
structure Timestamp where
  year : Nat
  month : Nat
  day : Nat
  time : Option ClockTime := none
deriving DecidableEq, Repr

/-! ### Reading -/

/-- Between `least` and `most` digits at the start, as many as there are, and the rest. -/
def readDigits? (least most : Nat) (cs : List Char) : Option (List Char × List Char) :=
  let digits := (cs.takeWhile Char.isDigit).take most
  if digits.length < least then none else some (digits, cs.drop digits.length)

/-- The number that some digits write. -/
def ofDigits (digits : List Char) : Nat := digits.foldl (fun n c => 10 * n + (c.toNat - 48)) 0

/-- A number of digits at the start, after a mark. -/
def readMarked? (mark : Char) (least most : Nat) (cs : List Char) : Option (Nat × List Char) :=
  match cs with
  | [] => none
  | c :: rest =>
    if c == mark then (readDigits? least most rest).map fun (ds, rest) => (ofDigits ds, rest)
    else none

/-- A zone that is all of the characters, after blanks. -/
def readZone? (cs : List Char) : Option (Option Zone) :=
  match cs.dropWhile fun c => c == ' ' || c == '\t' with
  | [] => if cs.isEmpty then some none else none
  | ['Z'] => some (some .utc)
  | sign :: rest =>
    if sign == '+' || sign == '-' then
      match readDigits? 1 2 rest with
      | none => none
      | some (hours, []) => some (some (.offset (sign == '-') (ofDigits hours) 0))
      | some (hours, rest) =>
        match readMarked? ':' 2 2 rest with
        | some (minutes, []) => some (some (.offset (sign == '-') (ofDigits hours) minutes))
        | _ => none
    else none

/-- The microseconds of the digits after a point. Further digits do not count. -/
def microseconds (digits : List Char) : Nat :=
  let kept := digits.take 6
  ofDigits kept * tenTo (6 - kept.length)

/-- A time that is all of the characters. -/
def readTime? (cs : List Char) : Option ClockTime := do
  let (hour, rest) ← readDigits? 1 2 cs
  let (minute, rest) ← readMarked? ':' 2 2 rest
  let (second, rest) ← readMarked? ':' 2 2 rest
  let (fraction, rest) :=
    match rest with
    | '.' :: rest => (rest.takeWhile Char.isDigit, rest.dropWhile Char.isDigit)
    | rest => ([], rest)
  let zone ← readZone? rest
  return ⟨ofDigits hour, minute, second, microseconds fraction, zone⟩

/-- The characters of a time after the mark that separates it from the date: a letter or blanks. -/
def afterTimeMark? : List Char → Option (List Char)
  | [] => none
  | c :: rest =>
    if c == 'T' || c == 't' then some rest
    else if c == ' ' || c == '\t' then some (rest.dropWhile fun c => c == ' ' || c == '\t')
    else none

/-- A timestamp: four digits of the year, then month and day, each of one or two digits, then
perhaps a time. -/
def Timestamp.read? (cs : List Char) : Option Timestamp := do
  let (year, rest) ← readDigits? 4 4 cs
  let (month, rest) ← readMarked? '-' 1 2 rest
  let (day, rest) ← readMarked? '-' 1 2 rest
  if rest.isEmpty then return ⟨ofDigits year, month, day, none⟩
  let time ← readTime? (← afterTimeMark? rest)
  return ⟨ofDigits year, month, day, some time⟩

/-! ### Validity -/

/-- Whether a year has a leap day. -/
def isLeapYear (year : Nat) : Bool := year % 4 == 0 && (year % 100 != 0 || year % 400 == 0)

/-- The number of days of a month. -/
def daysOfMonth (year month : Nat) : Nat :=
  if month == 2 then if isLeapYear year then 29 else 28
  else if [4, 6, 9, 11].contains month then 30 else 31

/-- Whether a zone is less than a day away from universal time. -/
def Zone.isValid : Zone → Bool
  | utc => true
  | offset _ hours minutes => hours * 60 + minutes < 24 * 60

/-- Whether the clock shows a time. -/
def ClockTime.isValid (t : ClockTime) : Bool :=
  t.hour < 24 && t.minute < 60 && t.second < 60 && t.zone.all Zone.isValid

/-- Whether the calendar has a date and the clock shows its time. -/
def Timestamp.isValid (t : Timestamp) : Bool :=
  1 ≤ t.year && 1 ≤ t.month && t.month ≤ 12 && 1 ≤ t.day && t.day ≤ daysOfMonth t.year t.month &&
    t.time.all ClockTime.isValid

end LintReport.Yaml
