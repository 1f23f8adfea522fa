/-!
# Base 64

Four characters stand for three octets. Characters outside the alphabet are passed over. An equals
sign counts only where it can complete a group of four, and then ends the text.

## Main definitions

* `Base64.decode?`: the octets of a text.
-/

namespace LintReport.Yaml.Base64

/-- The value of a character of the alphabet. -/
def value? (c : Char) : Option Nat :=
  if 'A' ≤ c ∧ c ≤ 'Z' then some (c.toNat - 65)
  else if 'a' ≤ c ∧ c ≤ 'z' then some (c.toNat - 71)
  else if c.isDigit then some (c.toNat + 4)
  else if c == '+' then some 62
  else if c == '/' then some 63
  else none

/-- The octets of the rest of a text. `held` are the values of the open group, last first, and
`pads` the equals signs directly before. -/
def decodeRest (done : List UInt8) (held : List Nat) (pads : Nat) : List Char → Option (List UInt8)
  | [] => if held.isEmpty then some done else none
  | c :: rest =>
    if c == '=' then
      if 2 ≤ held.length then
        if 4 ≤ held.length + pads + 1 then some done else decodeRest done held (pads + 1) rest
      else decodeRest done held pads rest
    else
      match value? c with
      | none => decodeRest done held pads rest
      | some v =>
        match held with
        | [] => decodeRest done [v] 0 rest
        | [a] => decodeRest (done ++ [UInt8.ofNat (a * 4 + v / 16)]) [v, a] 0 rest
        | [b, a] => decodeRest (done ++ [UInt8.ofNat (b % 16 * 16 + v / 4)]) [v, b, a] 0 rest
        | c :: _ => decodeRest (done ++ [UInt8.ofNat (c % 4 * 64 + v)]) [] 0 rest

/-- The octets of a text, unless a group is incomplete. -/
def decode? (cs : List Char) : Option (List UInt8) := decodeRest [] [] 0 cs

end LintReport.Yaml.Base64
