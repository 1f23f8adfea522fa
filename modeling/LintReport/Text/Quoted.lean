import LintReport.Text.Hex
import LintReport.Text.Printable

/-!
# Quoted texts

Diagnostics show a text so that blanks and invisible characters can be seen. A text stands between
apostrophes, or between double quotes when it holds an apostrophe and no double quote. A backslash,
the quote itself, tab, line feed and carriage return are escaped; any other character that is not
printable is written by its code point.

## Main definitions

* `Text.quote`: a text in quotes.
* `Text.quoteBytes`: octets in quotes, marked by a leading `b`.
* `Text.quoteList`: a list of texts, each quoted, in brackets.
-/

namespace LintReport.Text

/-- The apostrophe. -/
def apostrophe : Char := '\x27'

/-- The double quote. -/
def doubleQuote : Char := '\x22'

/-- The backslash. -/
def backslash : Char := '\x5c'

/-- The quote to put around a text: an apostrophe, unless the text holds one and no double quote. -/
def quoteMark (cs : List Char) : Char :=
  if cs.contains apostrophe && !cs.contains doubleQuote then doubleQuote else apostrophe

/-- A code point written in hexadecimal, as short as its size allows. -/
def escapeCode (n : Nat) : List Char :=
  if n < 0x100 then backslash :: 'x' :: hexPad 2 n
  else if n < 0x10000 then backslash :: 'u' :: hexPad 4 n
  else backslash :: 'U' :: hexPad 8 n

/-- One character inside quotes. -/
def quoteChar (mark c : Char) : List Char :=
  if c == mark || c == backslash then [backslash, c]
  else if c == '\t' then [backslash, 't']
  else if c == '\n' then [backslash, 'n']
  else if c == '\r' then [backslash, 'r']
  else if isPrintable c then [c]
  else escapeCode c.toNat

/-- A list of characters in quotes. -/
def quoteChars (cs : List Char) : List Char :=
  let mark := quoteMark cs
  mark :: cs.flatMap (quoteChar mark) ++ [mark]

/-- A text in quotes. -/
def quote (s : String) : String := String.ofList (quoteChars s.toList)

/-- One octet inside quotes: only printable ASCII stands for itself. -/
def quoteByte (mark : Char) (b : UInt8) : List Char :=
  let c := Char.ofNat b.toNat
  if b.toNat < 0x7F then quoteChar mark c else escapeCode b.toNat

/-- Octets in quotes, after a `b`. -/
def quoteBytes (bytes : List UInt8) : String :=
  let mark := quoteMark (bytes.map fun b => Char.ofNat b.toNat)
  String.ofList ('b' :: mark :: bytes.flatMap (quoteByte mark) ++ [mark])

/-- A list of texts, each quoted, between brackets. -/
def quoteList (texts : List String) : String :=
  "[" ++ ", ".intercalate (texts.map quote) ++ "]"

end LintReport.Text
