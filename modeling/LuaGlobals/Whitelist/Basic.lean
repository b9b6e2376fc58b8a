import LuaGlobals.Keyed
import LuaGlobals.Text.Dotted
import LuaGlobals.Text.Quoted

/-! # Whitelists

A whitelist is a tree of permitted names. A node is a table of members, a symbol without members,
or permits every name at and below it.

* `Node` is a node and `Entries` the members of a table.
* `resolve entries name` walks down a qualified name from the root.
* `Node.same` compares trees without regard to the order of members.
-/

namespace LuaGlobals.Whitelist

/-- A node of a whitelist. -/
inductive Node where
  /-- Every name at or below this node is permitted. -/
  | any
  /-- A symbol with no known members; the identity is a free label. -/
  | symbol (identity : String)
  /-- A table with the given members. -/
  | table (entries : List (String × Node))
deriving Repr

/-- The members of a table, each name once. -/
abbrev Entries := List (String × Node)

/-- The members of a node; only a table has some. -/
def Node.entries : Node → Entries
  | .table entries => entries
  | .any | .symbol _ => []

/-- Whether a node permits every name below it. -/
def Node.isAny : Node → Bool
  | .any => true
  | .symbol _ | .table _ => false

/-! ## Lookup -/

/-- What looking up a name gives. -/
structure Resolution where
  /-- The node under the name, if every component is found. -/
  node? : Option Node
  /-- Whether at least the root of the name is found. -/
  rootResolved : Bool
deriving Repr

/-- Walks down the components of a name from a node, where `found` tells whether a component was
found before. The walk ends at a node that permits every name below it. -/
def resolveFrom (node : Node) (found : Bool) : List String → Resolution
  | [] => ⟨some node, found⟩
  | component :: rest =>
    match node with
    | .any => ⟨some .any, found⟩
    | .symbol _ => ⟨none, found⟩
    | .table entries =>
      match Keyed.lookup? component entries with
      | some child => resolveFrom child true rest
      | none => ⟨none, found⟩

/-- Looks up a qualified name below a node. -/
def Node.resolve (node : Node) (name : String) : Resolution :=
  resolveFrom node false (Text.components name)

/-- Looks up a qualified name in a whitelist. -/
def resolve (entries : Entries) (name : String) : Resolution :=
  (Node.table entries).resolve name

/-! ## Comparison -/

mutual

/-- Whether two nodes are the same but for the order of members. -/
def Node.same : Node → Node → Bool
  | .any, .any => true
  | .symbol identity, .symbol other => identity == other
  | .table entries, .table others =>
    entries.length == others.length && containedIn entries others
  | _, _ => false

/-- Whether each of the given members is, but for order, one of the others. -/
def containedIn : List (String × Node) → List (String × Node) → Bool
  | [], _ => true
  | (name, node) :: rest, others =>
    (match Keyed.lookup? name others with
      | some other => node.same other
      | none => false)
    && containedIn rest others

end

/-! ## Display -/

mutual

/-- The text that shows a node. -/
def Node.display : Node → String
  | .any => "ANY"
  | .symbol identity => "Opaque(" ++ Text.quoteString identity ++ ")"
  | .table entries => "Namespace(\x7b" ++ ", ".intercalate (displayEntries entries) ++ "\x7d)"

/-- The texts that show the members of a table. -/
def displayEntries : List (String × Node) → List String
  | [] => []
  | (name, node) :: rest =>
    (Text.quoteString name ++ ": " ++ node.display) :: displayEntries rest

end

end LuaGlobals.Whitelist
