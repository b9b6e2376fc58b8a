import LuaGlobals.Whitelist.Basic

/-! # Working copies of a whitelist

While one unit is checked its whitelist gains and loses names. The changes go to a working copy,
which starts as the base whitelist and parts from it at the first change. A unit may be permitted
the names that it assigns: assigning a bare name permits all below it, assigning a member such as
`string.trim` permits that member alone.

* `bindPath` adds one path to a node.
* `writtenBindings` gives the new nodes of all roots that a unit assigns.
* `ScopedWhitelist.entries` is what lookups see.
* `ScopedWhitelist.bind` adds or replaces a top-level name.
* `ScopedWhitelist.rebuild` replaces all of them.
-/

namespace LuaGlobals.Whitelist

/-! ## Written names -/

/-- The node that also permits a path below it. A node on the path that is missing or a symbol
becomes a table. -/
def bindPath : Option Node → List String → Node
  | _, [] => .any
  | some .any, _ :: _ => .any
  | some (.table entries), component :: rest =>
    .table (Keyed.put component (bindPath (Keyed.lookup? component entries) rest) entries)
  | _, component :: rest => .table [(component, bindPath none rest)]

/-- The bindings with the path of one name added; a root without binding starts from `base`. -/
def addWritten (base bindings : Entries) (name : String) : Entries :=
  let root := Text.root name
  let current := (Keyed.lookup? root bindings).or (Keyed.lookup? root base)
  Keyed.put root (bindPath current (Text.memberPath name)) bindings

/-- The bindings of the roots of the written names, where a root keeps the members that it has in
`base`. The names are taken in the order of their code points. -/
def writtenBindings (names : List String) (base : Entries) : Entries :=
  (names.mergeSort (· ≤ ·)).foldl (addWritten base) []

/-! ## Working copies -/

/-- A base whitelist and the working copy that may have replaced it. -/
structure ScopedWhitelist where
  /-- The whitelist that is never changed. -/
  base : Entries
  /-- The working copy, once something changed. -/
  copy? : Option Entries
deriving Repr

namespace ScopedWhitelist

/-- A base whitelist without changes. -/
def ofBase (base : Entries) : ScopedWhitelist :=
  ⟨base, none⟩

/-- The entries that lookups see. -/
def entries (working : ScopedWhitelist) : Entries :=
  working.copy?.getD working.base

/-- Whether something changed. -/
def isCopied (working : ScopedWhitelist) : Bool :=
  working.copy?.isSome

/-- Binds a top-level name. -/
def bind (working : ScopedWhitelist) (name : String) (node : Node) : ScopedWhitelist :=
  { working with copy? := some (Keyed.put name node working.entries) }

/-- Binds several top-level names. -/
def bindAll (working : ScopedWhitelist) (bindings : Entries) : ScopedWhitelist :=
  bindings.foldl (fun working binding => working.bind binding.1 binding.2) working

/-- Keeps nothing but the given entries. -/
def rebuild (working : ScopedWhitelist) (entries : Entries) : ScopedWhitelist :=
  { working with copy? := some entries }

/-- Looks up a qualified name. -/
def resolve (working : ScopedWhitelist) (name : String) : Resolution :=
  Whitelist.resolve working.entries name

/-! ## What the operations do to the entries -/

@[simp] theorem entries_ofBase (base : Entries) : (ofBase base).entries = base := rfl

@[simp] theorem entries_bind (working : ScopedWhitelist) (name : String) (node : Node) :
    (working.bind name node).entries = Keyed.put name node working.entries := rfl

@[simp] theorem entries_rebuild (working : ScopedWhitelist) (entries : Entries) :
    (working.rebuild entries).entries = entries := rfl

@[simp] theorem base_bind (working : ScopedWhitelist) (name : String) (node : Node) :
    (working.bind name node).base = working.base := rfl

/-- Binding several names puts them into the entries one after the other. -/
@[simp] theorem entries_bindAll (working : ScopedWhitelist) (bindings : Entries) :
    (working.bindAll bindings).entries = Keyed.putAll working.entries bindings := by
  induction bindings generalizing working with
  | nil => rfl
  | cons binding rest ih => simpa [bindAll, Keyed.putAll] using ih (working.bind binding.1 binding.2)

end ScopedWhitelist

end LuaGlobals.Whitelist
