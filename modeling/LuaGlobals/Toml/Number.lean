import LuaGlobals.Json.Reader
import LuaGlobals.Number.Binary

/-! # TOML values, their numbers, dates and times

* `Toml.Value` is a TOML value. A float keeps what a setting looks at, and a date or time keeps
  nothing.
* `readNumber?` reads an integer or a float. An underscore may stand between two digits.
* `readMoment?` reads a date, a time, or both.
-/

namespace LuaGlobals.Toml

/-! ## Values -/

/-- A TOML value. -/
inductive Value where
  /-- A truth value. -/
  | bool (value : Bool)
  /-- An integer. -/
  | integer (value : Int)
  /-- A float. -/
  | float (value : FloatValue)
  /-- A text. -/
  | string (text : String)
  /-- A date, a time, or both. -/
  | moment
  /-- An array. -/
  | array (items : List Value)
  /-- A table, each key once. -/
  | table (entries : List (String × Value))
deriving Repr

/-- The members of a table. -/
abbrev Entries := List (String × Value)

/-! ## Numbers -/

/-- Reads digits off the front of a text, each after the first with at most one underscore before
it. -/
def readGroups (isDigit : Char → Bool) : List Char → List Char × List Char
  | '_' :: c :: rest =>
    if isDigit c then
      let (digits, rest) := readGroups isDigit rest
      (c :: digits, rest)
    else ([], '_' :: c :: rest)
  | c :: rest =>
    if isDigit c then
      let (digits, rest) := readGroups isDigit rest
      (c :: digits, rest)
    else ([], c :: rest)
  | [] => ([], [])

/-- Reads at least one digit. -/
def readDigits? (isDigit : Char → Bool) (text : List Char) : Option (List Char × List Char) :=
  match text with
  | c :: rest =>
    if isDigit c then
      let (digits, rest) := readGroups isDigit rest
      some (c :: digits, rest)
    else none
  | [] => none

/-- The number that digits spell in a base. -/
def digitsValue (base : Nat) (digits : List Char) : Nat :=
  digits.foldl (fun value digit => base * value + (Json.hexValue? digit).getD 0) 0

/-- Whether a character is a digit of a base. -/
def isDigitOf (base : Nat) (c : Char) : Bool :=
  match Json.hexValue? c with
  | some value => value < base
  | none => false

/-- Reads an integer in base sixteen, eight or two. -/
def readBased? (text : List Char) : Option (Value × List Char) :=
  let read (base : Nat) (rest : List Char) := do
    let (digits, rest) ← readDigits? (isDigitOf base) rest
    return (Value.integer (digitsValue base digits), rest)
  match text with
  | '0' :: 'x' :: rest => read 16 rest
  | '0' :: 'o' :: rest => read 8 rest
  | '0' :: 'b' :: rest => read 2 rest
  | _ => none

/-- Reads a sign, if there is one, and tells whether it is a minus. -/
def readSign (text : List Char) : Bool × List Char :=
  match text with
  | '+' :: rest => (false, rest)
  | '-' :: rest => (true, rest)
  | _ => (false, text)

/-- A number with a sign. -/
def signed (negative : Bool) (value : Nat) : Int :=
  if negative then -(value : Int) else value

/-- Reads the digits before the point: a zero, or digits that do not start with one. -/
def readWhole? (text : List Char) : Option (List Char × List Char) :=
  match text with
  | '0' :: rest => some (['0'], rest)
  | _ => readDigits? Char.isDigit text

/-- Reads a point and the digits after it, if there are any. -/
def readFraction? (text : List Char) : Option (List Char × List Char) :=
  match text with
  | '.' :: rest => readDigits? Char.isDigit rest
  | _ => none

/-- Reads an exponent, if there is one. -/
def readExponent? (text : List Char) : Option (Int × List Char) :=
  match text with
  | mark :: rest =>
    if mark = 'e' ∨ mark = 'E' then do
      let (negative, rest) := readSign rest
      let (digits, rest) ← readDigits? Char.isDigit rest
      return (signed negative (digitsValue 10 digits), rest)
    else none
  | [] => none

/-- Reads an integer or a float in base ten. -/
def readDecimal? (text : List Char) : Option (Value × List Char) := do
  let (negative, rest) := readSign text
  let (whole, rest) ← readWhole? rest
  let fraction? := readFraction? rest
  let (fraction, rest) := fraction?.getD ([], rest)
  let exponent? := readExponent? rest
  let (exponent, rest) := exponent?.getD (0, rest)
  let mantissa := signed negative (digitsValue 10 (whole ++ fraction))
  if fraction?.isNone && exponent?.isNone then return (.integer mantissa, rest)
  else return (.float (.ofDecimal mantissa (exponent - fraction.length)), rest)

/-- The spellings of the floats that are not finite. -/
def specialFloats : List String :=
  ["inf", "nan", "-inf", "+inf", "-nan", "+nan"]

/-- Reads a float that is not finite. -/
def readSpecial? (text : List Char) : Option (Value × List Char) :=
  specialFloats.findSome? fun word =>
    (word.toList.isPrefixOf? text).map fun rest => (.float .notFinite, rest)

/-- Reads a number. -/
def readNumber? (text : List Char) : Option (Value × List Char) :=
  ((readBased? text).or (readDecimal? text)).or (readSpecial? text)

/-! ## Dates and times -/

/-- Reads a number of a fixed count of digits that lies between two bounds. -/
def readField? (count low high : Nat) (text : List Char) : Option (Nat × List Char) :=
  let digits := text.take count
  let value := digitsValue 10 digits
  if digits.length = count ∧ digits.all Char.isDigit ∧ low ≤ value ∧ value ≤ high then
    some (value, text.drop count)
  else none

/-- Reads one given character. -/
def readMark? (mark : Char) (text : List Char) : Option (List Char) :=
  match text with
  | c :: rest => if c = mark then some rest else none
  | [] => none

/-- Reads an hour and a minute and gives what follows. -/
def readClock? (text : List Char) : Option (List Char) := do
  let (_, text) ← readField? 2 0 23 text
  let text ← readMark? ':' text
  let (_, text) ← readField? 2 0 59 text
  return text

/-- Reads a time of day and gives what follows. -/
def readTime? (text : List Char) : Option (List Char) := do
  let text ← readClock? text
  let text ← readMark? ':' text
  let (_, text) ← readField? 2 0 59 text
  match text with
  | '.' :: c :: rest =>
    if c.isDigit then return rest.dropWhile Char.isDigit else return text
  | _ => return text

/-- The text behind a time zone, if there is one. -/
def dropZone (text : List Char) : List Char :=
  match text with
  | c :: rest =>
    if c = 'Z' ∨ c = 'z' then rest
    else if c = '+' ∨ c = '-' then (readClock? rest).getD text
    else text
  | [] => []

/-- The number of days in a month. -/
def daysInMonth (year month : Nat) : Nat :=
  if month = 2 then
    if year % 4 = 0 ∧ (year % 100 ≠ 0 ∨ year % 400 = 0) then 29 else 28
  else if month ∈ [4, 6, 9, 11] then 30
  else 31

/-- Reads a date: its year, month and day, and what follows. -/
def readDate? (text : List Char) : Option ((Nat × Nat × Nat) × List Char) := do
  let (year, text) ← readField? 4 0 9999 text
  let text ← readMark? '-' text
  let (month, text) ← readField? 2 1 12 text
  let text ← readMark? '-' text
  let (day, text) ← readField? 2 1 31 text
  return ((year, month, day), text)

/-- The text behind the time that follows a date, if there is one. -/
def dropTimeOfDate (text : List Char) : List Char :=
  match text with
  | c :: rest =>
    if c = 'T' ∨ c = 't' ∨ c = ' ' then
      match readTime? rest with
      | some rest => dropZone rest
      | none => text
    else text
  | [] => []

/-- What a text starts with, when looking for a date or time. -/
inductive MomentReading where
  /-- Neither a date nor a time. -/
  | absent
  /-- A date that no calendar has. -/
  | impossible
  /-- A date or time, and what follows. -/
  | found (rest : List Char)

/-- Reads a date with an optional time, or a time. -/
def readMoment (text : List Char) : MomentReading :=
  match readDate? text with
  | some ((year, month, day), rest) =>
    if 1 ≤ year ∧ day ≤ daysInMonth year month then .found (dropTimeOfDate rest) else .impossible
  | none =>
    match readTime? text with
    | some rest => .found rest
    | none => .absent

end LuaGlobals.Toml
