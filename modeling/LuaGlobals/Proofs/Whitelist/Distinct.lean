import LuaGlobals.Proofs.Keyed
import LuaGlobals.Proofs.Whitelist.Written
import Mathlib.Data.List.Perm.Subperm

/-! # Whitelists with each name once

A table is kept as a row of entries. It is meant as a table only as long as no name stands in it
twice, which all ways of building a whitelist see to.

* `Node.Distinct` says so of all tables at and below a node.
* **`Node.Distinct.bindPath`**: adding a path keeps the names distinct.
* `Node.bare` is what can be told of a node without its members.
* **`Node.same_of_forall_nodeAt?`**: two nodes are the same but for the order of members when every
  path leads to the same below both, as far as that can be told without members. -/

namespace LuaGlobals

namespace Whitelist

/-! ## Distinct names -/

/-- **Induction over a node**: a table has the property when each of its members has it. -/
theorem Node.induction {motive : Node → Prop} (any : motive .any)
    (symbol : ∀ identity, motive (.symbol identity))
    (table : ∀ entries : Entries, (∀ entry ∈ entries, motive entry.2) → motive (.table entries))
    (node : Node) : motive node :=
  @Node.rec motive (fun entries => ∀ entry ∈ entries, motive entry.2) (fun entry => motive entry.2)
    any symbol table (by simp) (fun _ _ hfirst hrest => List.forall_mem_cons.mpr ⟨hfirst, hrest⟩)
    (fun _ _ hnode => hnode) node

mutual

/-- Whether every table at and below a node has each name once. -/
def Node.isDistinct : Node → Bool
  | .any | .symbol _ => true
  | .table entries => decide (Keyed.keys entries).Nodup && areDistinct entries

/-- Whether every table below the members of a table has each name once. -/
def areDistinct : List (String × Node) → Bool
  | [] => true
  | (_, node) :: rest => node.isDistinct && areDistinct rest

end

/-- **Every table at and below a node has each name once.** -/
def Node.Distinct (node : Node) : Prop :=
  node.isDistinct = true

instance (node : Node) : Decidable node.Distinct :=
  inferInstanceAs (Decidable (_ = true))

variable {node : Node} {node? : Option Node} {entries : Entries}

@[simp] theorem Node.distinct_any : Node.any.Distinct := rfl

@[simp] theorem Node.distinct_symbol (identity : String) : (Node.symbol identity).Distinct := rfl

/-- The members of a table are looked at one by one. -/
theorem areDistinct_iff : areDistinct entries = true ↔ ∀ entry ∈ entries, entry.2.Distinct := by
  induction entries with
  | nil => simp [areDistinct]
  | cons entry rest ih =>
      rw [areDistinct, Bool.and_eq_true, ih, List.forall_mem_cons]
      rfl

/-- **A table with each name once** has distinct keys, and whatever is found in it is such a node
again. -/
theorem Node.distinct_table_iff :
    (Node.table entries).Distinct ↔
      (Keyed.keys entries).Nodup
        ∧ ∀ name, ∀ node ∈ Keyed.lookup? name entries, node.Distinct := by
  show (decide (Keyed.keys entries).Nodup && areDistinct entries) = true ↔ _
  rw [Bool.and_eq_true, decide_eq_true_eq, areDistinct_iff]
  refine and_congr_right fun hkeys => ⟨?_, ?_⟩
  · intro h name node hnode
    exact h (name, node) (Keyed.mem_of_lookup? hnode)
  · intro h entry hentry
    exact h entry.1 entry.2 (Keyed.lookup?_of_mem hkeys hentry)

/-- The names in a table are distinct. -/
theorem Node.Distinct.nodup_keys (h : (Node.table entries).Distinct) :
    (Keyed.keys entries).Nodup :=
  (Node.distinct_table_iff.mp h).1

/-- What is found in a table has distinct names. -/
theorem Node.Distinct.of_lookup? (h : (Node.table entries).Distinct) {name : String} :
    ∀ node ∈ Keyed.lookup? name entries, node.Distinct :=
  (Node.distinct_table_iff.mp h).2 name

/-- Putting a node keeps the names distinct. -/
theorem Node.Distinct.put (h : (Node.table entries).Distinct) (hnode : node.Distinct)
    (name : String) : (Node.table (Keyed.put name node entries)).Distinct := by
  refine Node.distinct_table_iff.mpr ⟨Keyed.nodup_keys_put h.nodup_keys, ?_⟩
  intro other found hfound
  by_cases hother : other = name
  · rw [hother, Keyed.lookup?_put_self] at hfound
    rwa [← Option.some.inj hfound]
  · rw [Keyed.lookup?_put_of_ne hother] at hfound
    exact h.of_lookup? found hfound

/-- The members of a node have distinct names. -/
theorem distinct_members (h : ∀ node ∈ node?, node.Distinct) :
    (Node.table (members node?)).Distinct := by
  match node? with
  | none => rfl
  | some .any => rfl
  | some (.symbol _) => rfl
  | some (.table _) => exact h _ rfl

/-- Whatever a path leads to has distinct names. -/
theorem Node.Distinct.of_nodeAt? {path : List String} (h : ∀ node ∈ node?, node.Distinct) :
    ∀ found ∈ nodeAt? node? path, found.Distinct := by
  induction path generalizing node? with
  | nil => simpa using h
  | cons component rest ih =>
      match node? with
      | none => simp
      | some .any => simp
      | some (.symbol _) => simp [nodeAt?]
      | some (.table _) => exact ih (h _ rfl).of_lookup?

/-- **Adding a path keeps the names distinct.** -/
theorem Node.Distinct.bindPath (h : ∀ node ∈ node?, node.Distinct) (path : List String) :
    (bindPath node? path).Distinct := by
  induction path generalizing node? with
  | nil => simp [Whitelist.bindPath]
  | cons component rest ih =>
      by_cases hany : node? = some .any
      · rw [hany]
        simp [Whitelist.bindPath]
      · rw [bindPath_cons hany]
        have hmembers := distinct_members h
        exact hmembers.put (ih hmembers.of_lookup?) component

/-! ## Equality but for order -/

/-- What can be told of a node without its members. -/
def Node.bare : Node → Node
  | .any => .any
  | .symbol identity => .symbol identity
  | .table _ => .table []

/-- Where the same can be told of two nodes, both are there or neither is. -/
theorem isSome_eq_of_map_bare {other? : Option Node}
    (h : node?.map Node.bare = other?.map Node.bare) : node?.isSome = other?.isSome := by
  rw [← Option.isSome_map, h, Option.isSome_map]

/-- Each entry has a counterpart among the others. -/
theorem containedIn_iff {others : Entries} :
    containedIn entries others = true ↔
      ∀ entry ∈ entries, ∃ other, Keyed.lookup? entry.1 others = some other
        ∧ entry.2.same other = true := by
  induction entries with
  | nil => simp [containedIn]
  | cons entry rest ih =>
      rw [containedIn, Bool.and_eq_true, ih, List.forall_mem_cons]
      refine and_congr_left fun _ => ?_
      cases Keyed.lookup? entry.1 others <;> simp

/-- Two tables are the same when they have the same names, and what is found under one name is the
same. -/
theorem Node.same_table {others : Entries} (hentries : (Keyed.keys entries).Nodup)
    (hothers : (Keyed.keys others).Nodup)
    (hnames : ∀ name, name ∈ Keyed.keys entries ↔ name ∈ Keyed.keys others)
    (hfound : ∀ entry ∈ entries, ∀ other ∈ Keyed.lookup? entry.1 others,
      entry.2.same other = true) :
    (Node.table entries).same (.table others) = true := by
  have hlength : entries.length = others.length := by
    have hkeys := ((List.perm_ext_iff_of_nodup hentries hothers).mpr hnames).length_eq
    simpa [Keyed.keys] using hkeys
  rw [Node.same, Bool.and_eq_true, beq_iff_eq, containedIn_iff]
  refine ⟨hlength, ?_⟩
  intro entry hentry
  have hname : entry.1 ∈ Keyed.keys others := (hnames _).mp (List.mem_map_of_mem hentry)
  obtain ⟨other, hother⟩ := Option.isSome_iff_exists.mp ((Keyed.lookup?_isSome_iff _ _).mpr hname)
  exact ⟨other, hother, hfound entry hentry other hother⟩

/-- **Two nodes are the same but for the order of members** when every path leads to the same below
both, as far as that can be told without members. -/
theorem Node.same_of_forall_nodeAt? {other : Node} (hnode : node.Distinct) (hother : other.Distinct)
    (h : ∀ query, (nodeAt? (some node) query).map Node.bare
      = (nodeAt? (some other) query).map Node.bare) :
    node.same other = true := by
  -- The empty path tells that the two nodes are of one kind.
  have hhere : node.bare = other.bare := by simpa using h []
  induction node using Node.induction generalizing other with
  | any =>
      cases other <;> simp [Node.bare] at hhere
      rfl
  | symbol identity =>
      cases other <;> simp [Node.bare] at hhere
      simp [Node.same, hhere]
  | table entries ih =>
      cases other with
      | any => simp [Node.bare] at hhere
      | symbol identity => simp [Node.bare] at hhere
      | table others =>
          have hbelow (name : String) (query : List String) :
              (nodeAt? (Keyed.lookup? name entries) query).map Node.bare
                = (nodeAt? (Keyed.lookup? name others) query).map Node.bare := h (name :: query)
          refine Node.same_table hnode.nodup_keys hother.nodup_keys ?_ ?_
          · intro name
            have hfound := isSome_eq_of_map_bare (by simpa using hbelow name [])
            rw [← Keyed.lookup?_isSome_iff, ← Keyed.lookup?_isSome_iff, hfound]
          · intro entry hentry found hfound
            have hlookup := Keyed.lookup?_of_mem hnode.nodup_keys hentry
            have hqueries (query : List String) := hbelow entry.1 query
            rw [hlookup, Option.mem_def.mp hfound] at hqueries
            exact ih entry hentry (hnode.of_lookup? _ hlookup) (hother.of_lookup? _ hfound) hqueries
              (by simpa using hqueries [])

end Whitelist

end LuaGlobals
