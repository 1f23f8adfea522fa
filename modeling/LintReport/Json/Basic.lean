import LintReport.Number.Binary64

/-!
# JSON values

The engine, the code host and the results files all speak JSON. A number written without a fraction
and without an exponent is an integer of any size; every other number is a binary64 number. Members
of an object keep the order in which their keys first appear, and a repeated key keeps its last
value.

## Main definitions

* `Json`: the values.
* `Json.insert`: the members of an object after one more has been read.
* `Json.lookup?`, `Json.field?`: the value of a key.
* `Json.sorted`: the same value with the members of every object in key order.
-/

namespace LintReport

/-- A JSON value. -/
inductive Json
  | null
  | bool (b : Bool)
  | int (i : Int)
  | float (x : Binary64)
  | str (s : String)
  | arr (items : List Json)
  | obj (members : List (String × Json))
deriving Repr

namespace Json

instance : Inhabited Json := ⟨null⟩

/-- The value of a key among members. -/
def lookup? (key : String) : List (String × Json) → Option Json
  | [] => none
  | (k, v) :: rest => if k == key then some v else lookup? key rest

/-- Members after the value of a key has been set: in place where the key is known, at the end where
it is new. -/
def insert (key : String) (value : Json) : List (String × Json) → List (String × Json)
  | [] => [(key, value)]
  | (k, v) :: rest => if k == key then (k, value) :: rest else (k, v) :: insert key value rest

/-- The value of a key in an object; other values have no keys. -/
def field? (key : String) : Json → Option Json
  | obj members => lookup? key members
  | _ => none

/-- The text of a string value. -/
def text? : Json → Option String
  | str s => some s
  | _ => none

/-- The integer of a number written as one. A Boolean is not a number. -/
def int? : Json → Option Int
  | int i => some i
  | _ => none

/-- Setting a key makes it readable. -/
theorem lookup?_insert_self (key : String) (value : Json) (members : List (String × Json)) :
    lookup? key (insert key value members) = some value := by
  induction members with
  | nil => simp [insert, lookup?]
  | cons m rest ih =>
    obtain ⟨k, v⟩ := m
    by_cases h : k == key
    · simp [insert, lookup?, h]
    · simp [insert, lookup?, h, ih]

/-- Setting a key leaves all other keys as they were. -/
theorem lookup?_insert_of_ne {key other : String} (value : Json) (members : List (String × Json))
    (h : key ≠ other) : lookup? other (insert key value members) = lookup? other members := by
  induction members with
  | nil => simp [insert, lookup?, h]
  | cons m rest ih =>
    obtain ⟨k, v⟩ := m
    by_cases hk : k == key
    · have : k = key := by simpa using hk
      subst this
      simp [insert, lookup?, h]
    · simp [insert, lookup?, hk, ih]

/-! ### Key order -/

/-- Whether one member stands before another by its key. -/
def keyBefore (a b : String × Json) : Bool := !decide (b.1 < a.1)

mutual

/-- The same value with the members of every object in the order of their keys. -/
def sorted : Json → Json
  | arr items => arr (sortedItems items)
  | obj members => obj ((sortedMembers members).mergeSort keyBefore)
  | null => null
  | bool b => bool b
  | int i => int i
  | float x => float x
  | str s => str s

/-- Each item with its members in key order. -/
def sortedItems : List Json → List Json
  | [] => []
  | v :: rest => sorted v :: sortedItems rest

/-- Each member with the members of its value in key order. -/
def sortedMembers : List (String × Json) → List (String × Json)
  | [] => []
  | (k, v) :: rest => (k, sorted v) :: sortedMembers rest

end

end Json

end LintReport
