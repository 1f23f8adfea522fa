/-!
# Where and why a text is not read as JSON

A reader reports the first place where the text stops being JSON. While reading, a place is known by
the number of characters that are left there; for people it is a line, a column and an offset, all
counted in characters. A text may also hold more than the reader has room for, which is a fault of
another kind: it has no place and says nothing about what follows.

## Main definitions

* `Json.Cause`: what was expected or refused.
* `Json.Limit`: what there is no room for.
* `Json.Fault`: why a reader stops: at a cause, with the number of characters left, or at a limit.
* `Json.SyntaxFault`: a cause with its line, column and offset, and its `message`.
* `Json.ParseFault`: why a text has no value.
-/

namespace LintReport.Json

/-- What is wrong at the place of a fault. -/
inductive Cause
  /-- No value starts here. -/
  | value
  /-- No key of an object starts here. -/
  | key
  /-- The colon after a key is missing. -/
  | colon
  /-- Neither a comma nor the closing bracket follows an element. -/
  | comma
  /-- Something follows the value. -/
  | extra
  /-- A string that starts here has no end. -/
  | openString
  /-- A control character stands inside a string. -/
  | control
  /-- A backslash is followed by an unknown letter. -/
  | escape
  /-- The four digits of a code escape are incomplete. -/
  | codeEscape
  /-- The text starts with a byte order mark. -/
  | byteOrderMark
deriving DecidableEq, Repr

/-- The words for a cause. -/
def Cause.message : Cause → String
  | .value => "Expecting value"
  | .key => "Expecting property name enclosed in double quotes"
  | .colon => "Expecting ':' delimiter"
  | .comma => "Expecting ',' delimiter"
  | .extra => "Extra data"
  | .openString => "Unterminated string starting at"
  | .control => "Invalid control character at"
  | .escape => "Invalid \\escape"
  | .codeEscape => "Invalid \\uXXXX escape"
  | .byteOrderMark => "Unexpected UTF-8 BOM (decode using utf-8-sig)"

/-- What a reader has no room for. -/
inductive Limit
  /-- Too many brackets that are open at once. -/
  | nesting
  /-- An integer with too many digits. -/
  | digits
deriving DecidableEq, Repr

/-- The words for a limit. -/
def Limit.message : Limit → String
  | .nesting => "maximum recursion depth exceeded"
  | .digits => "Exceeds the limit for integer string conversion"

/-- Why a reader stops. -/
inductive Fault
  /-- It met what is not JSON, where a number of characters were left. -/
  | refused (cause : Cause) (left : Nat)
  /-- It has no room for what comes next. -/
  | beyond (limit : Limit)
deriving DecidableEq, Repr

/-- A cause with its place in the text. -/
structure SyntaxFault where
  cause : Cause
  line : Nat
  column : Nat
  offset : Nat
deriving DecidableEq, Repr

/-- The place of a cause in a text, by the number of characters left. -/
def Cause.locate (cause : Cause) (text : List Char) (left : Nat) : SyntaxFault :=
  let offset := text.length - left
  let before := text.take offset
  let lastLine := before.reverse.takeWhile (· != '\n')
  ⟨cause, before.count '\n' + 1, lastLine.length + 1, offset⟩

/-- Why a text has no value. -/
inductive ParseFault
  /-- It is not JSON. -/
  | notJson (fault : SyntaxFault)
  /-- The reader has no room for it. -/
  | beyond (limit : Limit)
deriving DecidableEq, Repr

/-- What a fault of the reader means for a text. -/
def Fault.locate (text : List Char) : Fault → ParseFault
  | .refused cause left => .notJson (cause.locate text left)
  | .beyond limit => .beyond limit

/-- The words for a fault and its place. -/
def SyntaxFault.message (fault : SyntaxFault) : String :=
  s!"{fault.cause.message}: line {fault.line} column {fault.column} (char {fault.offset})"

end LintReport.Json
