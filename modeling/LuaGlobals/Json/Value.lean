/-! # JSON values

* `Json.Value` is a JSON value. The members of an object keep their order, and a number keeps its
  spelling.
* `Json.Value.typeName` names the type of a value in messages.
-/

namespace LuaGlobals.Json

/-- A JSON value. -/
inductive Value where
  /-- The null value. -/
  | null
  /-- A truth value. -/
  | bool (value : Bool)
  /-- A number, as it is spelled. -/
  | number (spelling : String)
  /-- A text. -/
  | string (text : String)
  /-- An array. -/
  | array (items : List Value)
  /-- An object, each key once. -/
  | object (members : List (String × Value))
deriving Repr

/-- Whether the spelling of a number is that of an integer: a sign and digits alone. -/
def isIntegerSpelling (spelling : String) : Bool :=
  spelling.toList.all fun c => c.isDigit || c == '-'

/-- The name of the type of a value. -/
def Value.typeName : Value → String
  | .null => "NoneType"
  | .bool _ => "bool"
  | .number spelling => if isIntegerSpelling spelling then "int" else "float"
  | .string _ => "str"
  | .array _ => "list"
  | .object _ => "dict"

/-- The value of an integer. -/
def Value.ofInt (value : Int) : Value :=
  .number (toString value)

end LuaGlobals.Json
