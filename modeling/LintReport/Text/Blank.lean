/-!
# Blank characters

Trimming, splitting and telling whether a text is blank. Blank means white space in the sense of the
character database, together with the four information separators U+001C to U+001F: 29 characters
in all.

## Main definitions

* `Text.isBlank`: the class of blank characters.
* `Text.trim`: a text without its leading and trailing blanks.
* `Text.isBlankText`: whether nothing is left after trimming.
* `Text.splitAt`: the pieces between the occurrences of a separator.
-/

namespace LintReport.Text

/-- The code points of the blank characters, in increasing order. -/
def blankCodes : List Nat :=
  [0x09, 0x0A, 0x0B, 0x0C, 0x0D, 0x1C, 0x1D, 0x1E, 0x1F, 0x20, 0x85, 0xA0, 0x1680, 0x2000, 0x2001,
    0x2002, 0x2003, 0x2004, 0x2005, 0x2006, 0x2007, 0x2008, 0x2009, 0x200A, 0x2028, 0x2029, 0x202F,
    0x205F, 0x3000]

/-- White space of any script, and the information separators. -/
def isBlank (c : Char) : Bool := blankCodes.contains c.toNat

/-- What is left of a text after its leading characters of a class. -/
def dropStart (p : Char → Bool) (cs : List Char) : List Char := cs.dropWhile p

/-- What is left of a text before its trailing characters of a class. -/
def dropEnd (p : Char → Bool) (cs : List Char) : List Char := (cs.reverse.dropWhile p).reverse

/-- A list of characters without its leading and trailing blanks. -/
def trimChars (cs : List Char) : List Char := dropEnd isBlank (dropStart isBlank cs)

/-- A text without its leading and trailing blanks. -/
def trim (s : String) : String := String.ofList (trimChars s.toList)

/-- Whether a text holds blanks only. -/
def isBlankText (s : String) : Bool := s.toList.all isBlank

/-- A text without the trailing occurrences of one character. -/
def dropTrailing (mark : Char) (s : String) : String :=
  String.ofList (dropEnd (· == mark) s.toList)

/-- The pieces between the occurrences of a separator; there is always at least one. -/
def splitChars (separator : Char) : List Char → List (List Char)
  | [] => [[]]
  | c :: rest =>
    if c == separator then [] :: splitChars separator rest
    else
      match splitChars separator rest with
      | [] => [[c]]
      | piece :: pieces => (c :: piece) :: pieces

/-- The pieces of a text between the occurrences of a separator. -/
def splitAt (separator : Char) (s : String) : List String :=
  (splitChars separator s.toList).map String.ofList

/-- Whether a list of characters occurs as a contiguous part of another. -/
def occursIn (part : List Char) : List Char → Bool
  | [] => part.isEmpty
  | c :: rest => part.isPrefixOf (c :: rest) || occursIn part rest

/-- Whether a text occurs inside another. The empty text occurs everywhere. -/
def contains (part whole : String) : Bool := occursIn part.toList whole.toList

end LintReport.Text
