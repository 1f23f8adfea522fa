import LintReport.Text.Hex
import LintReport.Text.Utf8
import LintReport.Yaml.Cursor
import LintReport.Yaml.Fault
import LintReport.Yaml.Token

/-!
# Names, tags and directives

## Main definitions

* `Yaml.word`: the name of an anchor or alias.
* `Yaml.tagToken`: a tag.
* `Yaml.directiveLine`: a directive with the rest of its line.
-/

namespace LintReport.Yaml

/-- A name at a place, which has to be followed by a character of a class. -/
def word (follows : Char → Bool) (c : Cursor) : Except Fault (String × Cursor) :=
  let (name, c) := c.span isWordChar
  if name.isEmpty || !follows c.peek then .error .malformed else .ok (String.ofList name, c)

/-- The characters that may follow the name of an anchor or alias. -/
def endsAnchor (c : Char) : Bool := isGap c || "?:,]\x7d%@`".toList.contains c

/-- The octets of a run of percent escapes, and the place after it. -/
def uriOctets : Nat → List UInt8 → Cursor → Except Fault (List UInt8 × Cursor)
  | 0, done, c => .ok (done, c)
  | budget + 1, done, c =>
    match c.rest with
    | '%' :: a :: b :: _ =>
      match Text.hexNumber? [a, b] with
      | some n => uriOctets budget (done ++ [UInt8.ofNat n]) (c.drop 3)
      | none => .error .malformed
    | '%' :: _ => .error .malformed
    | _ => .ok (done, c)

/-- The characters of a tag at a place, after those in `done`, with their percent escapes read. -/
def uriRest : Nat → List Char → Cursor → Except Fault (List Char × Cursor)
  | 0, done, c => .ok (done, c)
  | budget + 1, done, c => do
    let (run, c) := c.span fun ch => isUriChar ch && ch != '%'
    let done := done ++ run
    if c.peek == '%' then
      let (octets, c) ← uriOctets (c.rest.length + 1) [] c
      match Text.Utf8.decodeChars? octets with
      | some cs => uriRest budget (done ++ cs) c
      | none => throw .malformed
    else return (done, c)

/-- The characters of a tag at a place. There has to be one. -/
def uri (c : Cursor) : Except Fault (String × Cursor) := do
  let (cs, after) ← uriRest (c.rest.length + 1) [] c
  if after.index == c.index then throw .malformed
  return (String.ofList cs, after)

/-- A tag handle at a place: an exclamation mark, alone before a space, or a name between two. -/
def tagHandle (c : Cursor) : Except Fault (String × Cursor) :=
  if c.peek != '!' then .error .malformed
  else if c.peekAt 1 == ' ' then .ok ("!", c.advance)
  else
    let (name, c) := c.advance.span isWordChar
    if c.peek == '!' then .ok (String.ofList ('!' :: name ++ ['!']), c.advance)
    else .error .malformed

/-- Whether a second exclamation mark stands in the run of characters after the first one. -/
def hasHandle (c : Cursor) : Bool :=
  (c.rest.drop 1).find? (fun ch => ch == '!' || isSpaceOrEnd ch) == some '!'

/-- The tag whose exclamation mark stands at a place. -/
def tagToken (c : Cursor) : Except Fault (Token × Cursor) := do
  let (token, c) ←
    if c.peekAt 1 == '<' then do
      let (suffix, c) ← uri (c.drop 2)
      if c.peek == '>' then pure (Token.tag none suffix, c.advance) else throw .malformed
    else if isGap (c.peekAt 1) then pure (Token.tag none "!", c.advance)
    else do
      let (handle, c) ← if hasHandle c then tagHandle c else pure ("!", c.advance)
      let (suffix, c) ← uri c
      pure (Token.tag (some handle) suffix, c)
  if isSpaceOrEnd c.peek then return (token, c) else throw .malformed

/-- A number of a version. -/
def versionNumber (c : Cursor) : Except Fault (Nat × Cursor) :=
  let (digits, c) := c.span Char.isDigit
  if digits.isEmpty then .error .malformed
  else .ok (digits.foldl (fun n ch => 10 * n + (ch.toNat - 48)) 0, c)

/-- The directive whose percent sign stands at a place, with the rest of its line. -/
def directiveLine (c : Cursor) : Except Fault (Token × Cursor) := do
  let (name, c) ← word isSpaceOrEnd c.advance
  let (directive, c) ←
    if name == "YAML" then do
      let (major, c) ← versionNumber c.skipSpaces
      if c.peek != '.' then throw .malformed
      let (minor, c) ← versionNumber c.advance
      pure (Directive.version major minor, c)
    else if name == "TAG" then do
      let (handle, c) ← tagHandle c.skipSpaces
      if c.peek != ' ' then throw .malformed
      let (meaning, c) ← uri c.skipSpaces
      pure (Directive.tagHandle handle meaning, c)
    else pure (Directive.other, c.skip fun ch => !isLineEnd ch)
  if !isSpaceOrEnd c.peek then throw .malformed
  match c.ignoredLine? with
  | some c => return (.directive directive, c)
  | none => throw .malformed

end LintReport.Yaml
