import LuaGlobals.Json.Value
import LuaGlobals.Text.Quoted

/-! # Writing JSON

* `Json.write value` spells a value over several lines, each level indented by two spaces. Only
  printable ASCII characters appear; all others are escaped by their UTF-16 units.
-/

namespace LuaGlobals.Json

/-- The escape of one UTF-16 unit. -/
def unitEscape (unit : Nat) : List Char :=
  '\\' :: 'u' :: Text.hexadecimal 4 unit

/-- How a character is spelled inside a string. -/
def stringChar (c : Char) : List Char :=
  if c = '"' ∨ c = '\\' then ['\\', c]
  else if c = '\n' then ['\\', 'n']
  else if c = '\r' then ['\\', 'r']
  else if c = '\t' then ['\\', 't']
  else if c = '\x08' then ['\\', 'b']
  else if c = '\x0C' then ['\\', 'f']
  else if ' ' ≤ c ∧ c ≤ '~' then [c]
  else if c.toNat < 0x10000 then unitEscape c.toNat
  else
    let offset := c.toNat - 0x10000
    unitEscape (0xD800 + offset / 0x400) ++ unitEscape (0xDC00 + offset % 0x400)

/-- The spelling of a string. -/
def writeString (text : String) : String :=
  String.ofList ('"' :: text.toList.flatMap stringChar ++ ['"'])

/-- The start of a line at a given level. -/
def newLine (level : Nat) : String :=
  String.ofList ('\n' :: List.replicate (2 * level) ' ')

/-- Items between brackets, one a line; an empty row of items takes no line. -/
def enclose (opening closing : String) (level : Nat) (items : List String) : String :=
  if items = [] then opening ++ closing
  else
    opening ++ newLine (level + 1) ++ ("," ++ newLine (level + 1)).intercalate items
      ++ newLine level ++ closing

mutual

/-- The spelling of a value at a given level. -/
def writeAt (level : Nat) : Value → String
  | .null => "null"
  | .bool true => "true"
  | .bool false => "false"
  | .number spelling => spelling
  | .string text => writeString text
  | .array items => enclose "[" "]" level (writeItems (level + 1) items)
  | .object members => enclose "\x7b" "\x7d" level (writeMembers (level + 1) members)

/-- The spellings of the items of an array. -/
def writeItems (level : Nat) : List Value → List String
  | [] => []
  | item :: rest => writeAt level item :: writeItems level rest

/-- The spellings of the members of an object. -/
def writeMembers (level : Nat) : List (String × Value) → List String
  | [] => []
  | (key, value) :: rest =>
    (writeString key ++ ": " ++ writeAt level value) :: writeMembers level rest

end

/-- The spelling of a value. -/
def write (value : Value) : String :=
  writeAt 0 value

end LuaGlobals.Json
