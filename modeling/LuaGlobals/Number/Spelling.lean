import LuaGlobals.Text.Blank
import LuaGlobals.Text.Digit

/-! # Integers in loose spelling

A text may spell an integer with more than its digits: spaces around it, a plus sign, zeros in
front, a fraction of zeros, and underscores between digits. A loose spelling is cut down to the
plain one step by step, and what the steps leave must be plain.

* `plainInteger?` reads the plain spelling.
* `plainSpelling?` cuts a loose spelling down.
* `SpelledInteger.ofText` reads a text.
-/

namespace LuaGlobals

/-! ## The plain spelling -/

/-- The number that digits spell. Only zero itself starts with a zero. -/
def plainNatural? (digits : List Char) : Option Nat :=
  if digits = [] ∨ !digits.all Char.isDigit then none
  else if digits.head? = some '0' ∧ digits ≠ ['0'] then none
  else some (Text.natOfDigits digits)

/-- The integer that a plain spelling stands for: digits, perhaps behind a minus sign. -/
def plainInteger? (text : List Char) : Option Int :=
  match text with
  | '-' :: digits => (plainNatural? digits).map fun value => -(value : Int)
  | digits => (plainNatural? digits).map fun value => (value : Int)

/-! ## Cutting a loose spelling down -/

/-- The text behind a plus sign; a minus sign may not follow it. -/
def dropPlus? (text : List Char) : Option (List Char) :=
  match text with
  | '+' :: '-' :: _ => none
  | '+' :: rest => some rest
  | _ => some text

/-- Whether a character can start what follows the zeros in front. -/
def startsNumber (c : Char) : Bool :=
  c.isDigit || c == '-'

/-- The text behind zeros and underscores, of which `last` is the one before the text. That one
stays where nothing or a fraction follows. -/
def skipZeros? (last : Char) : List Char → Option (List Char)
  | [] => some [last]
  | c :: rest =>
    if c = '0' ∨ c = '_' then skipZeros? c rest
    else if c = '.' then some (last :: c :: rest)
    else if startsNumber c then some (c :: rest)
    else none

/-- The text without the zeros in front, when a digit or a minus sign starts it. -/
def dropZeros? (text : List Char) : Option (List Char) :=
  match text with
  | '0' :: rest => skipZeros? '0' rest
  | c :: rest => if startsNumber c then some (c :: rest) else none
  | [] => none

/-- The text before its first point, when nothing but zeros, and at least one, follows that. -/
def dropZeroFraction (text : List Char) : List Char :=
  match text.dropWhile (· != '.') with
  | '.' :: '0' :: rest => if rest.all (· == '0') then text.takeWhile (· != '.') else text
  | _ => text

/-- Whether an underscore stands at the end of a text or next to another one. -/
def hasStrayUnderscore : List Char → Bool
  | [] => false
  | ['_'] => true
  | '_' :: '_' :: _ => true
  | _ :: rest => hasStrayUnderscore rest

/-- The text without its underscores, when each stands between two other characters. -/
def dropUnderscores (text : List Char) : List Char :=
  if text.head? = some '_' ∨ hasStrayUnderscore text then text else text.filter (· != '_')

/-- The plain spelling of the integer that a loose one stands for. -/
def plainSpelling? (text : List Char) : Option (List Char) := do
  let text ← dropPlus? (Text.trimSpaces text)
  let text ← dropZeros? text
  return dropUnderscores (dropZeroFraction text)

/-! ## Reading -/

/-- The number of characters that a plain spelling may have. -/
def longestSpelling : Nat := 4300

/-- What a text spells. -/
inductive SpelledInteger where
  /-- An integer. -/
  | integer (value : Int)
  /-- An integer in plain spelling that has too many digits. -/
  | tooLong
  /-- No integer. -/
  | unclear
deriving DecidableEq, Repr

/-- The integer that a text spells, plainly or loosely. -/
def SpelledInteger.ofText (text : List Char) : SpelledInteger :=
  match plainInteger? text with
  | some value => if text.length ≤ longestSpelling then .integer value else .tooLong
  | none =>
    match plainSpelling? text with
    | none => .unclear
    | some plain =>
      match plainInteger? plain with
      | some value => if plain.length ≤ longestSpelling then .integer value else .unclear
      | none => .unclear

end LuaGlobals
