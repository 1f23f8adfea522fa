import LintReport.Yaml.Token.Block
import LintReport.Yaml.Token.Quoted
import LintReport.Yaml.Token.Tag

/-!
# From characters to tokens

A key of a block mapping is only known to be one when the colon after it is met. So the place before
each token that might start a key is remembered, for every depth of flow collections, and when the
colon comes, the mark of the key is put in at that place. A key has to stand on one line and to be
at most 1024 characters long. Indentation opens and closes block collections.

A fault ends the tokens. A reader of tokens meets it only after all tokens before the first one that
might still have become a key.

## Main definitions

* `Lexer`: the state between two tokens.
* `Lexer.next`: one more token, with the marks that come with it.
* `TokenStream`, `Lexer.tokens`: the tokens of a text.
-/

namespace LintReport.Yaml

/-- A token that might start a key. -/
structure KeyCandidate where
  /-- The number of the token, counted from zero. -/
  number : Nat
  /-- Whether nothing but a key can stand here. -/
  required : Bool
  index : Nat
  line : Nat
  column : Nat
deriving Repr

/-- The state between two tokens. -/
structure Lexer where
  cursor : Cursor
  /-- How many flow collections are open. -/
  depth : Int := 0
  /-- The column of the innermost block collection. -/
  indent : Int := -1
  /-- The columns of the block collections around it. -/
  outer : List Int := []
  /-- Whether a key may start here. -/
  keyAllowed : Bool := true
  /-- The candidates for keys, by depth. -/
  candidates : List (Int × KeyCandidate) := []
  /-- The tokens, last first. -/
  emitted : List Token := []
deriving Repr

namespace Lexer

/-- Whether a flow collection is open. -/
def inFlow (l : Lexer) : Bool := l.depth != 0

/-- The state after a token. -/
def emit (l : Lexer) (t : Token) : Lexer := { l with emitted := t :: l.emitted }

/-- The state after a mark has been put in before the token of a number. -/
def insertAt (l : Lexer) (number : Nat) (t : Token) : Lexer :=
  let later := l.emitted.length - number
  { l with emitted := l.emitted.take later ++ t :: l.emitted.drop later }

/-- The state after some characters. -/
def moveTo (l : Lexer) (c : Cursor) : Lexer := { l with cursor := c }

/-! ### Blanks and indentation -/

/-- The place after blanks, comments and line breaks, and whether a line break was among them. -/
def skipBlanks : Nat → Bool → Cursor → Bool × Cursor
  | 0, broken, c => (broken, c)
  | budget + 1, broken, c =>
    let c := c.skipSpaces
    let c := if c.peek == '#' then c.skip fun ch => !isLineEnd ch else c
    match c.lineBreak? with
    | some (_, c) => skipBlanks budget true c
    | none => (broken, c)

/-- The state at the next token. A byte order mark at the very start is skipped. In block context a
new line allows a key. -/
def toToken (l : Lexer) : Lexer :=
  let start := if l.cursor.index == 0 && l.cursor.peek == '\uFEFF' then l.cursor.advance
    else l.cursor
  let (broken, c) := skipBlanks (start.rest.length + 1) false start
  { l with cursor := c, keyAllowed := l.keyAllowed || (broken && !l.inFlow) }

/-- Ends of the block collections that are indented deeper than a column. -/
def closeTo (column : Int) (l : Lexer) : Lexer :=
  if l.inFlow then l
  else go l.outer l
where
  go : List Int → Lexer → Lexer
    | [], l => l
    | parent :: rest, l =>
      if column < l.indent then go rest { l.emit .blockEnd with indent := parent, outer := rest }
      else l

/-- Starts a block collection at a column if it is indented deeper than the innermost one. -/
def openAt (column : Int) (l : Lexer) : Lexer × Bool :=
  if l.indent < column then ({ l with indent := column, outer := l.indent :: l.outer }, true)
  else (l, false)

/-! ### Candidates for keys -/

/-- The state without the candidates that are too long or stand on an earlier line. -/
def dropStale (l : Lexer) : Except Fault Lexer :=
  let isStale (k : KeyCandidate) :=
    k.line != l.cursor.line || decide (1024 < l.cursor.index - k.index)
  if l.candidates.any fun (_, k) => isStale k && k.required then .error .malformed
  else .ok { l with candidates := l.candidates.filter fun (_, k) => !isStale k }

/-- The candidate at the current depth. -/
def candidate? (l : Lexer) : Option KeyCandidate := l.candidates.lookup l.depth

/-- The state without the candidate at the current depth, which must not be required. -/
def dropCandidate (l : Lexer) : Except Fault Lexer :=
  match l.candidate? with
  | none => .ok l
  | some k =>
    if k.required then .error .malformed
    else .ok { l with candidates := l.candidates.filter fun (d, _) => d != l.depth }

/-- The state after the next token has become a candidate, where a key is allowed. -/
def addCandidate (l : Lexer) : Except Fault Lexer :=
  if l.keyAllowed then do
    let l ← l.dropCandidate
    let k : KeyCandidate :=
      { number := l.emitted.length
        required := !l.inFlow && l.indent == l.cursor.column
        index := l.cursor.index
        line := l.cursor.line
        column := l.cursor.column }
    return { l with candidates := (l.depth, k) :: l.candidates }
  else return l

/-! ### Tokens -/

/-- A token of some characters, after everything before it has been closed. -/
def atMargin (l : Lexer) : Except Fault Lexer := do
  let l ← (l.closeTo (-1)).dropCandidate
  return { l with keyAllowed := false }

/-- The end of the text. -/
def atEnd (l : Lexer) : Except Fault Lexer := do
  let l ← l.atMargin
  return { l.emit .streamEnd with candidates := [] }

/-- A token that may start a key and is read by `read`. -/
def nodeToken (l : Lexer) (read : Cursor → Except Fault (Token × Cursor)) : Except Fault Lexer := do
  let l ← l.addCandidate
  let (t, c) ← read l.cursor
  return ({ l with keyAllowed := false }.emit t).moveTo c

/-- An opening bracket. -/
def openFlow (l : Lexer) (t : Token) : Except Fault Lexer := do
  let l ← l.addCandidate
  return ({ l with depth := l.depth + 1, keyAllowed := true }.emit t).moveTo l.cursor.advance

/-- A closing bracket. -/
def closeFlow (l : Lexer) (t : Token) : Except Fault Lexer := do
  let l ← l.dropCandidate
  return ({ l with depth := l.depth - 1, keyAllowed := false }.emit t).moveTo l.cursor.advance

/-- A comma between the elements of a flow collection. -/
def flowEntry (l : Lexer) : Except Fault Lexer := do
  let l ← l.dropCandidate
  return ({ l with keyAllowed := true }.emit .flowEntry).moveTo l.cursor.advance

/-- A mark that may open a block collection. -/
def openBlock (l : Lexer) (t : Token) : Except Fault Lexer :=
  if l.inFlow then .ok l
  else if l.keyAllowed then
    let (l, opened) := l.openAt l.cursor.column
    .ok (if opened then l.emit t else l)
  else .error .malformed

/-- A dash before an element of a block sequence. -/
def blockEntry (l : Lexer) : Except Fault Lexer := do
  let l ← l.openBlock .blockSequenceStart
  let l ← { l with keyAllowed := true }.dropCandidate
  return (l.emit .blockEntry).moveTo l.cursor.advance

/-- A question mark before a key. -/
def keyMark (l : Lexer) : Except Fault Lexer := do
  let l ← l.openBlock .blockMappingStart
  let l ← { l with keyAllowed := !l.inFlow }.dropCandidate
  return (l.emit .key).moveTo l.cursor.advance

/-- A colon before a value. If there is a candidate, it has become a key. -/
def valueMark (l : Lexer) : Except Fault Lexer := do
  let l ←
    match l.candidate? with
    | some k =>
      let l := { l with candidates := l.candidates.filter fun (d, _) => d != l.depth }
      let l := l.insertAt k.number .key
      let l :=
        if l.inFlow then l
        else
          let (l, opened) := l.openAt k.column
          if opened then l.insertAt k.number .blockMappingStart else l
      pure { l with keyAllowed := false }
    | none => do
      let l ← l.openBlock .blockMappingStart
      { l with keyAllowed := !l.inFlow }.dropCandidate
  return (l.emit .value).moveTo l.cursor.advance

/-- A scalar after `|` or `>`. -/
def blockText (l : Lexer) (folded : Bool) : Except Fault Lexer := do
  let l ← { l with keyAllowed := true }.dropCandidate
  let (text, c) ← blockScalar folded l.indent l.cursor
  return (l.emit (.scalar (String.ofList text) false)).moveTo c

/-- A scalar without quotes. After a line break a key may follow. -/
def plainText (l : Lexer) : Except Fault Lexer := do
  let l ← l.addCandidate
  let s := plainScalar l.inFlow (l.indent + 1) l.cursor
  return ({ l with keyAllowed := s.breaksLine }.emit (.scalar (String.ofList s.text) true)).moveTo
    s.after

/-- A name after an ampersand or an asterisk. -/
def name (make : String → Token) (c : Cursor) : Except Fault (Token × Cursor) := do
  let (name, c) ← word endsAnchor c.advance
  return (make name, c)

/-- A scalar in quotes. -/
def quotedText (double : Bool) (c : Cursor) : Except Fault (Token × Cursor) := do
  let (text, c) ← quotedScalar double c
  return (.scalar (String.ofList text) false, c)

/-- Whether a plain scalar may start with a character, given the one after it. -/
def startsPlain (inFlow : Bool) (c next : Char) : Bool :=
  !(isGap c || "-?:,[]\x7b\x7d#&*!|>'\"%@`".toList.contains c) ||
    (!isGap next && (c == '-' || (!inFlow && (c == '?' || c == ':'))))

/-- One more token, with the marks that come with it, from a state that stands at the token. -/
def tokenAt (l : Lexer) : Except Fault Lexer :=
  let c := l.cursor
  let ch := c.peek
  let next := c.peekAt 1
  let margin := c.column == 0
  if ch == endMark then l.atEnd
  else if ch == '%' && margin then do
    let l ← l.atMargin
    let (t, c) ← directiveLine l.cursor
    return (l.emit t).moveTo c
  else if ch == '-' && margin && c.atSeparator then do
    let l ← l.atMargin
    return (l.emit .documentStart).moveTo (l.cursor.drop 3)
  else if ch == '.' && margin && c.atSeparator then do
    let l ← l.atMargin
    return (l.emit .documentEnd).moveTo (l.cursor.drop 3)
  else if ch == '[' then l.openFlow .flowSequenceStart
  else if ch == '\x7b' then l.openFlow .flowMappingStart
  else if ch == ']' then l.closeFlow .flowSequenceEnd
  else if ch == '\x7d' then l.closeFlow .flowMappingEnd
  else if ch == ',' then l.flowEntry
  else if ch == '-' && isGap next then l.blockEntry
  else if ch == '?' && (l.inFlow || isGap next) then l.keyMark
  else if ch == ':' && (l.inFlow || isGap next) then l.valueMark
  else if ch == '*' then l.nodeToken (name .alias)
  else if ch == '&' then l.nodeToken (name .anchor)
  else if ch == '!' then l.nodeToken tagToken
  else if ch == '|' && !l.inFlow then l.blockText false
  else if ch == '>' && !l.inFlow then l.blockText true
  else if ch == Text.apostrophe then l.nodeToken (quotedText false)
  else if ch == Text.doubleQuote then l.nodeToken (quotedText true)
  else if startsPlain l.inFlow ch next then l.plainText
  else .error .malformed

/-- One more token, with the marks that come with it. -/
def next (l : Lexer) : Except Fault Lexer := do
  let l ← l.toToken.dropStale
  (l.closeTo l.cursor.column).tokenAt

end Lexer

/-- The tokens of a text. Where the text has a fault, they end before it. -/
structure TokenStream where
  tokens : List Token
  fault : Fault
deriving Repr

namespace Lexer

/-- The tokens that are known in a state: those before the first candidate for a key. -/
def known (l : Lexer) : List Token :=
  let tokens := l.emitted.reverse
  match (l.candidates.map fun (_, k) => k.number).min? with
  | some n => tokens.take n
  | none => tokens

/-- The tokens from a state on. -/
def run : Nat → Lexer → TokenStream
  | 0, l => ⟨l.known, .malformed⟩
  | budget + 1, l =>
    match l.next with
    | .error fault => ⟨l.known, fault⟩
    | .ok after =>
      if after.emitted.head? == some .streamEnd then ⟨after.emitted.reverse, .malformed⟩
      else
        match after.dropStale with
        | .error fault => ⟨l.known, fault⟩
        | .ok after => run budget after

/-- The tokens of a text. Every token takes at least one character. -/
def tokens (text : List Char) : TokenStream :=
  if text.all isReadable then run (text.length + 1) { cursor := { rest := text } }
  else ⟨[], .malformed⟩

end Lexer

end LintReport.Yaml
