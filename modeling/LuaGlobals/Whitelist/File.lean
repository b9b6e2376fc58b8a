import LuaGlobals.Files.Tree
import LuaGlobals.Json.Reader
import LuaGlobals.Whitelist.Builtin

/-! # Whitelists in files, in layers

A file describes a whitelist as a JSON object: objects are tables, a text is a symbol with that
identity, and any other value a symbol named after its type.

* `merge entries layer` puts the members of a layer over those of a whitelist. Where both have a
  table under a name, the tables are merged in turn; else the layer wins.
* `loadWhitelist` reads one file.
* `buildWhitelist` lays files over the standard globals.
-/

namespace LuaGlobals.Whitelist

/-! ## Layers -/

mutual

/-- A node with another laid over it. -/
def Node.overlay : (upper : Node) → (lower : Option Node) → Node
  | .table upper, some (.table lower) => .table (overlayAll upper lower)
  | upper, _ => upper

/-- The entries of a table with others laid over them, one after the other. -/
def overlayAll : (upper lower : List (String × Node)) → List (String × Node)
  | [], lower => lower
  | (name, node) :: rest, lower =>
    overlayAll rest (Keyed.put name (node.overlay (Keyed.lookup? name lower)) lower)

end

/-- The whitelist with a layer over it. -/
def merge (entries layer : Entries) : Entries :=
  overlayAll layer entries

/-- The whitelist with all layers over it, the last on top. -/
def mergeAll (entries : Entries) (layers : List Entries) : Entries :=
  layers.foldl merge entries

/-! ## Files -/

/-- Why there is no whitelist. -/
inductive WhitelistError where
  /-- The file cannot be read. -/
  | unreadable (cause : FileError)
  /-- The file holds no JSON. -/
  | notJson
  /-- The file holds a value that is no object. -/
  | notObject (path : FilePath) (typeName : String)
deriving DecidableEq, Repr

/-- The message for a file that holds another value than an object. -/
def notObjectMessage (path : FilePath) (typeName : String) : String :=
  "Whitelist " ++ path.toString ++ " must contain a JSON object, got " ++ typeName

mutual

/-- The node that a value describes. -/
def Node.ofJson : Json.Value → Node
  | .object members => .table (entriesOfJson members)
  | .string text => .symbol text
  | .null => .symbol (Json.Value.typeName .null)
  | .bool value => .symbol (Json.Value.typeName (.bool value))
  | .number spelling => .symbol (Json.Value.typeName (.number spelling))
  | .array _ => .symbol (Json.Value.typeName (.array []))

/-- The entries that the members of an object describe. -/
def entriesOfJson : List (String × Json.Value) → List (String × Node)
  | [] => []
  | (key, value) :: rest => (key, Node.ofJson value) :: entriesOfJson rest

end

/-- Reads the whitelist in a file. -/
def loadWhitelist (tree : FileTree) (path : FilePath) : Except WhitelistError Entries :=
  match tree.read path with
  | .error cause => .error (.unreadable cause)
  | .ok text =>
    match Json.read? text.toList with
    | none => .error .notJson
    | some (.object members) => .ok (entriesOfJson members)
    | some value => .error (.notObject path value.typeName)

/-- The standard globals of a version. -/
def builtinWhitelist (version : String) : Except WhitelistError Entries :=
  match builtin? version with
  | some entries => .ok entries
  | none => .error (.unreadable .notFound)

/-- The whitelist of a run: the standard globals of a version, or nothing, with the whitelists in
files laid over it in order. -/
def buildWhitelist (tree : FileTree) (version : Option String) (files : List FilePath) :
    Except WhitelistError Entries := do
  let start ← match version.filter (· != "") with
    | some version => builtinWhitelist version
    | none => .ok []
  let layers ← files.mapM (loadWhitelist tree)
  return mergeAll start layers

end LuaGlobals.Whitelist
