/-! # Patterns of file names

* `Pattern.ofString` reads a pattern. A star stands for any text, a question mark for any one
  character, and brackets enclose a class of characters, or with an exclamation mark its
  complement. An opening bracket that is not closed stands for itself.
* `Pattern.accepts` decides whether a name fits a pattern. Upper and lower case differ.
-/

namespace LuaGlobals

/-- A range of characters with both ends. -/
abbrev CharRange := Char × Char

/-- One piece of a pattern. -/
inductive PatternItem where
  /-- Any text. -/
  | anyText
  /-- Any one character. -/
  | anyChar
  /-- One given character. -/
  | literal (c : Char)
  /-- A character inside some of the ranges, or inside none of them when `negated`. -/
  | charClass (negated : Bool) (ranges : List CharRange)
deriving DecidableEq, Repr

/-- A pattern of names. -/
abbrev Pattern := List PatternItem

namespace Pattern

/-- The ranges that the text between brackets lists. A hyphen between two characters makes a
range. -/
def ranges : List Char → List CharRange
  | first :: '-' :: last :: rest => (first, last) :: ranges rest
  | c :: rest => (c, c) :: ranges rest
  | [] => []

/-- Splits the text behind an opening bracket at the closing one. A closing bracket right at the
start, or right behind the exclamation mark, belongs to the class. -/
def cutClass? (text : List Char) : Option (List Char × List Char) :=
  let (mark, rest) := match text with
    | '!' :: rest => (['!'], rest)
    | _ => ([], text)
  let (bracket, rest) := match rest with
    | ']' :: rest => ([']'], rest)
    | _ => ([], rest)
  match rest.dropWhile (· != ']') with
  | ']' :: after => some (mark ++ bracket ++ rest.takeWhile (· != ']'), after)
  | _ => none

/-- The item for the text between brackets. -/
def classItem (body : List Char) : PatternItem :=
  match body with
  | '!' :: rest => .charClass true (ranges rest)
  | _ => .charClass false (ranges body)

/-- Reads a pattern; the first argument bounds the number of items. -/
def readWith : Nat → List Char → Pattern
  | 0, _ => []
  | _ + 1, [] => []
  | fuel + 1, '*' :: rest => .anyText :: readWith fuel rest
  | fuel + 1, '?' :: rest => .anyChar :: readWith fuel rest
  | fuel + 1, '[' :: rest =>
    match cutClass? rest with
    | some (body, rest) => classItem body :: readWith fuel rest
    | none => .literal '[' :: readWith fuel rest
  | fuel + 1, c :: rest => .literal c :: readWith fuel rest

/-- The pattern that a text spells. -/
def ofString (text : String) : Pattern :=
  readWith text.length text.toList

/-- Whether a character fits an item that stands for one character. -/
def fitsChar (c : Char) : PatternItem → Bool
  | .anyText => false
  | .anyChar => true
  | .literal d => c == d
  | .charClass negated ranges => (ranges.any fun range => range.1 ≤ c && c ≤ range.2) != negated

/-- Whether some end of a text, the text itself included, has a property. -/
def someTail (property : List Char → Bool) : List Char → Bool
  | [] => property []
  | c :: rest => property (c :: rest) || someTail property rest

/-- Whether a text fits a pattern. -/
def fits : Pattern → List Char → Bool
  | [], text => text.isEmpty
  | .anyText :: items, text => someTail (fits items) text
  | _ :: _, [] => false
  | item :: items, c :: rest => fitsChar c item && fits items rest

/-- Whether a name fits a pattern. -/
def accepts (pattern : Pattern) (name : String) : Bool :=
  pattern.fits name.toList

end Pattern

end LuaGlobals
