import LuaGlobals.Text.Printable

/-! # Quoted texts

Messages show foreign text between quotes, in one line and without characters that a reader
could not see.

* `quote text` is the quoted form. Double quotes enclose a text that holds a single quote and no
  double quote, single quotes every other one.
-/

namespace LuaGlobals.Text

/-- The hexadecimal digits of a number in lower case, padded with zeros to a width. -/
def hexadecimal (width number : Nat) : List Char :=
  let digits := Nat.toDigits 16 number
  List.replicate (width - digits.length) '0' ++ digits

/-- How a character that is not printable is spelled: by its code point in two, four or eight
hexadecimal digits, the fewest that hold it. -/
def codePointEscape (c : Char) : List Char :=
  if c.toNat < 0x100 then '\\' :: 'x' :: hexadecimal 2 c.toNat
  else if c.toNat < 0x10000 then '\\' :: 'u' :: hexadecimal 4 c.toNat
  else '\\' :: 'U' :: hexadecimal 8 c.toNat

/-- How a character is spelled inside a text enclosed by the quote `mark`. -/
def quotedChar (mark c : Char) : List Char :=
  if c = mark ∨ c = '\\' then ['\\', c]
  else if c = '\n' then ['\\', 'n']
  else if c = '\r' then ['\\', 'r']
  else if c = '\t' then ['\\', 't']
  else if isPrintable c then [c]
  else codePointEscape c

/-- The quote that encloses a text. -/
def quoteMark (text : List Char) : Char :=
  if '\'' ∈ text ∧ '"' ∉ text then '"' else '\''

/-- The quoted form of a text. -/
def quote (text : List Char) : List Char :=
  let mark := quoteMark text
  mark :: text.flatMap (quotedChar mark) ++ [mark]

/-- `quote` on strings. -/
def quoteString (text : String) : String :=
  String.ofList (quote text.toList)

end LuaGlobals.Text
