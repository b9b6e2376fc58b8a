import LuaGlobals.Json.Value
import LuaGlobals.Keyed

/-! # Reading JSON

* `Json.read? text` reads a text that holds one value. Beside the numbers of the standard it
  accepts the spellings `NaN`, `Infinity` and `-Infinity`. Of members with the same key the last
  one counts.
-/

namespace LuaGlobals.Json

/-- Whether a character may stand between tokens. -/
def isSpace (c : Char) : Bool :=
  c == ' ' || c == '\t' || c == '\n' || c == '\r'

/-- The text without the space in front. -/
def dropSpace (text : List Char) : List Char :=
  text.dropWhile isSpace

/-! ## Strings -/

/-- The value of a hexadecimal digit. -/
def hexValue? (c : Char) : Option Nat :=
  if '0' ≤ c ∧ c ≤ '9' then some (c.toNat - '0'.toNat)
  else if 'a' ≤ c ∧ c ≤ 'f' then some (c.toNat - 'a'.toNat + 10)
  else if 'A' ≤ c ∧ c ≤ 'F' then some (c.toNat - 'A'.toNat + 10)
  else none

/-- Reads a number of hexadecimal digits of a given count off the front of a text. -/
def readHex? (count : Nat) (text : List Char) : Option (Nat × List Char) :=
  let digits := text.take count
  if digits.length < count then none
  else do
    let values ← digits.mapM hexValue?
    return (values.foldl (fun value digit => 16 * value + digit) 0, text.drop count)

/-- Reads the second half of a pair of surrogates, given the first. -/
def readLowSurrogate? (high : Nat) (text : List Char) : Option (Char × List Char) :=
  match text with
  | '\\' :: 'u' :: rest =>
    match readHex? 4 rest with
    | some (low, rest) =>
      if 0xDC00 ≤ low ∧ low ≤ 0xDFFF then
        some (Char.ofNat (0x10000 + (high - 0xD800) * 0x400 + (low - 0xDC00)), rest)
      else none
    | none => none
  | _ => none

/-- The character that stands for half a pair of surrogates without the other half. -/
def replacementCharacter : Char :=
  '\uFFFD'

/-- Reads what follows the `u` of an escape. -/
def readCodeEscape? (text : List Char) : Option (Char × List Char) := do
  let (code, rest) ← readHex? 4 text
  if 0xD800 ≤ code ∧ code ≤ 0xDBFF then
    return (readLowSurrogate? code rest).getD (replacementCharacter, rest)
  else if 0xDC00 ≤ code ∧ code ≤ 0xDFFF then return (replacementCharacter, rest)
  else return (Char.ofNat code, rest)

/-- Reads what follows the backslash of an escape. -/
def readEscape? (text : List Char) : Option (Char × List Char) :=
  match text with
  | '"' :: rest => some ('"', rest)
  | '\\' :: rest => some ('\\', rest)
  | '/' :: rest => some ('/', rest)
  | 'b' :: rest => some ('\x08', rest)
  | 'f' :: rest => some ('\x0C', rest)
  | 'n' :: rest => some ('\n', rest)
  | 'r' :: rest => some ('\r', rest)
  | 't' :: rest => some ('\t', rest)
  | 'u' :: rest => readCodeEscape? rest
  | _ => none

/-- Reads a string behind its opening quote. Control characters must be escaped. The first
argument bounds the number of characters. -/
def readStringBody? : Nat → List Char → Option (List Char × List Char)
  | 0, _ => none
  | _ + 1, [] => none
  | fuel + 1, c :: rest =>
    if c = '"' then some ([], rest)
    else if c = '\\' then do
      let (escaped, rest) ← readEscape? rest
      let (body, rest) ← readStringBody? fuel rest
      return (escaped :: body, rest)
    else if c.toNat < 0x20 then none
    else do
      let (body, rest) ← readStringBody? fuel rest
      return (c :: body, rest)

/-- Reads a string behind its opening quote. -/
def readString? (text : List Char) : Option (String × List Char) :=
  (readStringBody? (text.length + 1) text).map fun (body, rest) => (String.ofList body, rest)

/-! ## Numbers -/

/-- Reads at least one digit off the front of a text. -/
def readDigits? (text : List Char) : Option (List Char × List Char) :=
  let digits := text.takeWhile Char.isDigit
  if digits = [] then none else some (digits, text.dropWhile Char.isDigit)

/-- Reads the digits before the point: zero or a number without leading zeros. -/
def readIntegerPart? (text : List Char) : Option (List Char × List Char) :=
  match text with
  | '0' :: rest => some (['0'], rest)
  | _ => readDigits? text

/-- Reads the point and the digits after it, if there are any. -/
def readFraction (text : List Char) : List Char × List Char :=
  match text with
  | '.' :: rest =>
    match readDigits? rest with
    | some (digits, rest) => ('.' :: digits, rest)
    | none => ([], text)
  | _ => ([], text)

/-- Reads an exponent, if there is one. -/
def readExponent (text : List Char) : List Char × List Char :=
  match text with
  | mark :: rest =>
    if mark = 'e' ∨ mark = 'E' then
      let (sign, rest) := match rest with
        | '+' :: rest => (['+'], rest)
        | '-' :: rest => (['-'], rest)
        | _ => ([], rest)
      match readDigits? rest with
      | some (digits, rest) => (mark :: sign ++ digits, rest)
      | none => ([], text)
    else ([], text)
  | [] => ([], text)

/-- Reads a number. -/
def readNumber? (text : List Char) : Option (String × List Char) := do
  let (sign, rest) := match text with
    | '-' :: rest => (['-'], rest)
    | _ => ([], text)
  let (whole, rest) ← readIntegerPart? rest
  let (fraction, rest) := readFraction rest
  let (exponent, rest) := readExponent rest
  return (String.ofList (sign ++ whole ++ fraction ++ exponent), rest)

/-! ## Values -/

/-- The words that stand for values. -/
def words : List (String × Value) :=
  [("null", .null), ("true", .bool true), ("false", .bool false), ("NaN", .number "NaN"),
    ("Infinity", .number "Infinity"), ("-Infinity", .number "-Infinity")]

/-- Reads a word off the front of a text. -/
def readWord? (text : List Char) : Option (Value × List Char) :=
  words.findSome? fun (word, value) =>
    (word.toList.isPrefixOf? text).map fun rest => (value, rest)

mutual

/-- Reads a value; the first argument bounds the nesting and the number of items. -/
def readValue? : Nat → List Char → Option (Value × List Char)
  | 0, _ => none
  | fuel + 1, text =>
    match text with
    | '"' :: rest => (readString? rest).map fun (text, rest) => (.string text, rest)
    | '[' :: rest =>
      match dropSpace rest with
      | ']' :: rest => some (.array [], rest)
      | rest => (readItems? fuel rest).map fun (items, rest) => (.array items, rest)
    | '{' :: rest =>
      match dropSpace rest with
      | '}' :: rest => some (.object [], rest)
      | rest =>
        (readMembers? fuel rest).map fun (members, rest) =>
          (.object (Keyed.putAll [] members), rest)
    | _ =>
      match readWord? text with
      | some result => some result
      | none => (readNumber? text).map fun (spelling, rest) => (.number spelling, rest)

/-- Reads the items of an array up to its end. -/
def readItems? : Nat → List Char → Option (List Value × List Char)
  | 0, _ => none
  | fuel + 1, text =>
    match readValue? fuel text with
    | none => none
    | some (item, rest) =>
      match dropSpace rest with
      | ']' :: rest => some ([item], rest)
      | ',' :: rest =>
        (readItems? fuel (dropSpace rest)).map fun (items, rest) => (item :: items, rest)
      | _ => none

/-- Reads the members of an object up to its end. -/
def readMembers? : Nat → List Char → Option (List (String × Value) × List Char)
  | 0, _ => none
  | fuel + 1, text =>
    match text with
    | '"' :: rest =>
      match readString? rest with
      | none => none
      | some (key, rest) =>
        match dropSpace rest with
        | ':' :: rest =>
          match readValue? fuel (dropSpace rest) with
          | none => none
          | some (value, rest) =>
            match dropSpace rest with
            | '}' :: rest => some ([(key, value)], rest)
            | ',' :: rest =>
              (readMembers? fuel (dropSpace rest)).map fun (members, rest) =>
                ((key, value) :: members, rest)
            | _ => none
        | _ => none
    | _ => none

end

/-- Reads a text that holds one value and space. -/
def read? (text : List Char) : Option Value :=
  match readValue? (2 * text.length + 2) (dropSpace text) with
  | some (value, rest) => if dropSpace rest = [] then some value else none
  | none => none

end LuaGlobals.Json
