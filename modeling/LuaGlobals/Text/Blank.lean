/-! # Blank characters

Listing lines are laid out with blanks of many kinds. This module fixes the one set of blank
characters that every reader of a listing uses, and the three ways of cutting blanks off.

* `isSpace c` decides membership in the set of Unicode spaces, and `isBlank c` in the larger set
  of blanks.
* `dropBlanks`, `dropBlanksEnd` and `trim` cut blanks off the front, the end and both sides, and
  `trimSpaces` cuts spaces off both sides.
-/

namespace LuaGlobals.Text

/-- Whether a character has the Unicode property White_Space: the ASCII separators from tab to
carriage return, the space, and the Unicode spaces and line separators. -/
def isSpace (c : Char) : Bool :=
  let code := c.toNat
  (0x09 ≤ code && code ≤ 0x0D) || code == 0x20 || code == 0x85 || code == 0xA0
    || code == 0x1680 || (0x2000 ≤ code && code ≤ 0x200A) || code == 0x2028 || code == 0x2029
    || code == 0x202F || code == 0x205F || code == 0x3000

/-- Whether a character counts as blank: a space, or one of the ASCII separators from file to
unit separator. -/
def isBlank (c : Char) : Bool :=
  isSpace c || (0x1C ≤ c.toNat && c.toNat ≤ 0x1F)

/-- Whether a text holds nothing but blanks. -/
def isBlankText (text : List Char) : Bool :=
  text.all isBlank

/-- The text without its leading blanks. -/
def dropBlanks (text : List Char) : List Char :=
  text.dropWhile isBlank

/-- The text without its trailing blanks. -/
def dropBlanksEnd (text : List Char) : List Char :=
  (text.reverse.dropWhile isBlank).reverse

/-- The text without the blanks on its two sides. -/
def trim (text : List Char) : List Char :=
  dropBlanksEnd (dropBlanks text)

/-- The text without the spaces on its two sides. -/
def trimSpaces (text : List Char) : List Char :=
  ((text.dropWhile isSpace).reverse.dropWhile isSpace).reverse

/-- `trim` on strings. -/
def trimString (text : String) : String :=
  String.ofList (trim text.toList)

end LuaGlobals.Text
