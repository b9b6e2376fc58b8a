import LuaGlobals.Proofs.Keyed
import LuaGlobals.Proofs.Text.Dotted
import LuaGlobals.Whitelist.Scoped

/-! # What a lookup depends on

* **`resolve_rootResolved_iff`**: the root of a name is resolved exactly when it is a key.
* **`resolve_congr`**: a lookup depends on nothing but the entry of the root.
* **`mem_keys_writtenBindings`**: the bindings of written names are those of their roots. -/

namespace LuaGlobals

/-! ## Lookups -/

namespace Whitelist

/-- A lookup that found a component before reports so. -/
theorem resolveFrom_rootResolved (node : Node) (path : List String) :
    (resolveFrom node true path).rootResolved = true := by
  induction path generalizing node with
  | nil => rfl
  | cons component rest ih =>
      unfold resolveFrom
      cases node with
      | any => rfl
      | symbol identity => rfl
      | table entries =>
          dsimp only
          split
          · exact ih _
          · rfl

/-- The root of a name decides how its lookup begins. -/
theorem resolve_eq (entries : Entries) (name : String) :
    ∃ rest, Text.components name = Text.root name :: rest ∧
      resolve entries name =
        ((Keyed.lookup? (Text.root name) entries).map fun child =>
          resolveFrom child true rest).getD ⟨none, false⟩ := by
  obtain ⟨rest, hrest⟩ := Text.components_eq_cons name
  refine ⟨rest, hrest, ?_⟩
  rw [resolve, Node.resolve, hrest]
  cases hlookup : Keyed.lookup? (Text.root name) entries with
  | none => simp [resolveFrom, hlookup]
  | some child => simp [resolveFrom, hlookup]

/-- **The root of a name is resolved exactly when it is a key.** -/
theorem resolve_rootResolved_iff {entries : Entries} {name : String} :
    (resolve entries name).rootResolved = true ↔ Text.root name ∈ Keyed.keys entries := by
  obtain ⟨rest, -, hresolve⟩ := resolve_eq entries name
  rw [hresolve, ← Keyed.lookup?_isSome_iff]
  cases Keyed.lookup? (Text.root name) entries with
  | none => simp
  | some child => simp [resolveFrom_rootResolved]

/-- A name whose root is not resolved has no node. -/
theorem resolve_eq_of_not_mem {entries : Entries} {name : String}
    (h : Text.root name ∉ Keyed.keys entries) : resolve entries name = ⟨none, false⟩ := by
  obtain ⟨rest, -, hresolve⟩ := resolve_eq entries name
  rw [hresolve, Keyed.lookup?_eq_none_iff.mpr h]
  rfl

/-- **A lookup depends on nothing but the entry of the root.** -/
theorem resolve_congr {entries others : Entries} {name : String}
    (h : Keyed.lookup? (Text.root name) entries = Keyed.lookup? (Text.root name) others) :
    resolve entries name = resolve others name := by
  obtain ⟨rest, hrest, hresolve⟩ := resolve_eq entries name
  obtain ⟨_, hrest', hresolve'⟩ := resolve_eq others name
  obtain rfl : rest = _ := (List.cons.inj (hrest.symm.trans hrest')).2
  rw [hresolve, hresolve', h]

/-! ## Written names -/

/-- Adding written names adds their roots. -/
theorem mem_keys_foldl_addWritten {key : String} {names : List String} {base bindings : Entries} :
    key ∈ Keyed.keys (names.foldl (addWritten base) bindings) ↔
      key ∈ Keyed.keys bindings ∨ ∃ name ∈ names, Text.root name = key := by
  induction names generalizing bindings with
  | nil => simp
  | cons name rest ih =>
      rw [List.foldl_cons, ih, addWritten, Keyed.mem_keys_put]
      simp only [List.mem_cons, exists_eq_or_imp]
      tauto

/-- **The bindings of written names are those of their roots**, whatever they start from. -/
theorem mem_keys_writtenBindings {key : String} {names : List String} {base : Entries} :
    key ∈ Keyed.keys (writtenBindings names base) ↔ ∃ name ∈ names, Text.root name = key := by
  rw [writtenBindings, mem_keys_foldl_addWritten]
  simp [Keyed.keys]

end Whitelist

end LuaGlobals
