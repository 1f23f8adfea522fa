/-!
# Characters of YAML

The classes of characters that the rules for tokens speak of. The end of a text is shown to those
rules as the null character, which no readable text holds.

## Main definitions

* `Yaml.isReadable`: the characters that a text may hold at all.
* `Yaml.isBreak`, `Yaml.isLineEnd`, `Yaml.isSpaceOrEnd`, `Yaml.isGap`: ends of lines and blanks.
* `Yaml.isWordChar`, `Yaml.isUriChar`: the characters of names and of tags.
-/

namespace LintReport.Yaml

/-- The characters that a text may hold: printable ones, tab, line ends and the byte order mark. -/
def isReadable (c : Char) : Bool :=
  let n := c.toNat
  n == 0x09 || n == 0x0A || n == 0x0D || (0x20 ≤ n && n ≤ 0x7E) || n == 0x85 ||
    (0xA0 ≤ n && n ≤ 0xD7FF) || (0xE000 ≤ n && n ≤ 0xFFFD) || 0x10000 ≤ n

/-- The end of a text, as the rules for tokens see it. -/
def endMark : Char := '\x00'

/-- The characters that break a line. -/
def isBreak (c : Char) : Bool :=
  c == '\n' || c == '\r' || c.toNat == 0x85 || c.toNat == 0x2028 || c.toNat == 0x2029

/-- A line break or the end of the text. -/
def isLineEnd (c : Char) : Bool := c == endMark || isBreak c

/-- A space, a line break or the end of the text. -/
def isSpaceOrEnd (c : Char) : Bool := c == ' ' || isLineEnd c

/-- A space, a tab, a line break or the end of the text. -/
def isGap (c : Char) : Bool := c == '\t' || isSpaceOrEnd c

/-- A space or a tab. -/
def isSpaceOrTab (c : Char) : Bool := c == ' ' || c == '\t'

/-- The characters of anchors, directive names and tag handles. -/
def isWordChar (c : Char) : Bool :=
  c.isDigit || ('A' ≤ c && c ≤ 'Z') || ('a' ≤ c && c ≤ 'z') || c == '-' || c == '_'

/-- The punctuation that may stand in a tag. -/
def uriPunctuation : List Char := "-;/?:@&=+$,_.!~*'()[]%".toList

/-- The characters of tags. -/
def isUriChar (c : Char) : Bool := isWordChar c || uriPunctuation.contains c

/-- The brackets and the comma of flow collections. -/
def isFlowMark (c : Char) : Bool := [',', '[', ']', '\x7b', '\x7d'].contains c

end LintReport.Yaml
