import LuaGlobals.Proofs.Whitelist.Lookup
import LuaGlobals.Whitelist.Scoped

/-! # What written names add to a whitelist

A written name adds one path to a whitelist. A query about a whitelist and an added path share
components from the root on; where they part, or which of them ends first, decides what the query
meets.

* `nodeAt?` is the node that a path leads to.
* `Permits` compares two nodes: the second one permits some paths beside what the first one does.
* **`Permits.bindPath`** and **`Permits.trans`**: one path, and one row of paths behind another.
* **`resolve_bindAll_writtenBindings`**: what each name resolves to once the written names are
  bound. -/

namespace LuaGlobals

namespace Whitelist

/-! ## Following a path -/

/-- The node that a path leads to. A node that permits every name below it ends the path. -/
def nodeAt? : Option Node → List String → Option Node
  | none, _ => none
  | some node, [] => some node
  | some .any, _ :: _ => some .any
  | some (.symbol _), _ :: _ => none
  | some (.table entries), component :: rest => nodeAt? (Keyed.lookup? component entries) rest

/-- The members of a node, if it is a table. -/
def members (node? : Option Node) : Entries :=
  (node?.map Node.entries).getD []

@[simp] theorem nodeAt?_none (path : List String) : nodeAt? none path = none := by
  cases path <;> rfl

@[simp] theorem nodeAt?_nil (node? : Option Node) : nodeAt? node? [] = node? := by
  cases node? <;> rfl

@[simp] theorem nodeAt?_any (path : List String) : nodeAt? (some .any) path = some .any := by
  cases path <;> rfl

/-- A path goes on below a member. -/
theorem nodeAt?_cons {node? : Option Node} (h : node? ≠ some .any) (component : String)
    (rest : List String) :
    nodeAt? node? (component :: rest) = nodeAt? (Keyed.lookup? component (members node?)) rest := by
  match node? with
  | none => exact (nodeAt?_none rest).symm
  | some .any => exact absurd rfl h
  | some (.symbol _) => exact (nodeAt?_none rest).symm
  | some (.table _) => rfl

/-- A path is added below a member. -/
theorem bindPath_cons {node? : Option Node} (h : node? ≠ some .any) (component : String)
    (rest : List String) :
    bindPath node? (component :: rest) =
      .table (Keyed.put component (bindPath (Keyed.lookup? component (members node?)) rest)
        (members node?)) := by
  match node? with
  | none => rfl
  | some .any => exact absurd rfl h
  | some (.symbol _) => rfl
  | some (.table _) => rfl

/-- A lookup gives the node that the components lead to. -/
theorem node?_resolveFrom (node : Node) (found : Bool) (path : List String) :
    (resolveFrom node found path).node? = nodeAt? (some node) path := by
  induction path generalizing node found with
  | nil => rfl
  | cons component rest ih =>
      cases node with
      | any => rfl
      | symbol identity => rfl
      | table entries =>
          rw [resolveFrom, nodeAt?]
          cases Keyed.lookup? component entries with
          | none => exact (nodeAt?_none rest).symm
          | some child => exact ih child true

/-- **A name resolves to what its components lead to.** -/
theorem node?_resolve (entries : Entries) (name : String) :
    (resolve entries name).node? = nodeAt? (some (.table entries)) (Text.components name) :=
  node?_resolveFrom _ _ _

/-! ## Adding paths -/

/-- A query is permitted when some path is a prefix of it, or the node permitted it already. -/
def Permitted (paths : List (List String)) (node? : Option Node) (query : List String) : Prop :=
  (∃ path ∈ paths, path <+: query) ∨ nodeAt? node? query = some .any

/-- **One node permits some paths beside what another one permits**, and nothing more. -/
structure Permits (paths : List (List String)) (before after : Option Node) : Prop where
  /-- What is permitted is so below as well. -/
  permitted : ∀ {query}, Permitted paths before query → nodeAt? after query = some .any
  /-- What lies on no path stays as it was. -/
  unrelated : ∀ {query}, ¬Permitted paths before query → (∀ path ∈ paths, ¬query <+: path) →
    nodeAt? after query = nodeAt? before query
  /-- What lies on the way to the end of a path is a table that keeps its members. -/
  extended : ∀ {query}, ¬Permitted paths before query → (∃ path ∈ paths, query <+: path) →
    ∃ entries, nodeAt? after query = some (.table entries)
      ∧ ∀ old, nodeAt? before query = some (.table old) → Keyed.keys old ⊆ Keyed.keys entries

/-- Without a path nothing changes. -/
theorem Permits.refl (node? : Option Node) : Permits [] node? node? where
  permitted := by simp [Permitted]
  unrelated _ _ := rfl
  extended := by simp

/-- Below a common first component the rests decide. -/
theorem permitted_cons {node? : Option Node} (h : node? ≠ some .any) (component : String)
    (path query : List String) :
    Permitted [component :: path] node? (component :: query)
      ↔ Permitted [path] (Keyed.lookup? component (members node?)) query := by
  simp [Permitted, nodeAt?_cons h]

/-- A node that permits everything permits what was permitted before. -/
theorem Permits.of_forall_permitted {paths : List (List String)} {node? : Option Node}
    (h : ∀ query, Permitted paths node? query) : Permits paths node? (some .any) where
  permitted _ := nodeAt?_any _
  unrelated hquery := absurd (h _) hquery
  extended hquery := absurd (h _) hquery

/-- A query leaves an added path at its first component, or follows it below that. -/
theorem nodeAt?_bindPath_cons {node? : Option Node} (h : node? ≠ some .any)
    (component : String) (rest : List String) (key : String) (query : List String) :
    nodeAt? (some (bindPath node? (component :: rest))) (key :: query)
      = if key = component then
          nodeAt? (some (bindPath (Keyed.lookup? component (members node?)) rest)) query
        else nodeAt? node? (key :: query) := by
  rw [bindPath_cons h, nodeAt?, nodeAt?_cons h]
  split
  case isTrue hkey => rw [hkey, Keyed.lookup?_put_self]
  case isFalse hkey => rw [Keyed.lookup?_put_of_ne hkey]

/-- A path is added to a node that does not permit everything, given that its rest is added below
its first component. -/
theorem Permits.of_child {node? : Option Node} (hany : node? ≠ some .any) {component : String}
    {rest : List String}
    (hchild : Permits [rest] (Keyed.lookup? component (members node?))
      (some (Whitelist.bindPath (Keyed.lookup? component (members node?)) rest))) :
    Permits [component :: rest] node?
      (some (Whitelist.bindPath node? (component :: rest))) where
  permitted := by
    rintro (_ | ⟨key, query⟩) hquery
    · simp [Permitted, hany] at hquery
    · rw [nodeAt?_bindPath_cons hany]
      split
      case isTrue hkey =>
          subst hkey
          exact hchild.permitted ((permitted_cons hany _ _ _).mp hquery)
      case isFalse hkey =>
          -- The path has another first component, so the node permitted the query before.
          simpa [Permitted, Ne.symm hkey] using hquery
  unrelated := by
    rintro (_ | ⟨key, query⟩) hquery hunrelated
    · simp at hunrelated
    · rw [nodeAt?_bindPath_cons hany]
      split
      case isTrue hkey =>
          subst hkey
          rw [nodeAt?_cons hany]
          refine hchild.unrelated (fun h => hquery ((permitted_cons hany _ _ _).mpr h)) ?_
          simpa using hunrelated
      case isFalse => rfl
  extended := by
    rintro (_ | ⟨key, query⟩) hquery hextended
    · refine ⟨_, by rw [bindPath_cons hany, nodeAt?_nil], ?_⟩
      intro old hold key hkey
      rw [nodeAt?_nil] at hold
      rw [Keyed.mem_keys_put, hold]
      exact Or.inr hkey
    · obtain ⟨rfl, hrest⟩ : key = component ∧ query <+: rest := by simpa using hextended
      rw [nodeAt?_bindPath_cons hany, if_pos rfl, nodeAt?_cons hany]
      exact hchild.extended (fun h => hquery ((permitted_cons hany _ _ _).mpr h))
        ⟨rest, List.mem_singleton_self _, hrest⟩

/-- **One added path.** -/
theorem Permits.bindPath (node? : Option Node) (path : List String) :
    Permits [path] node? (some (bindPath node? path)) := by
  induction path generalizing node? with
  | nil => exact Permits.of_forall_permitted fun query => Or.inl (by simp)
  | cons component rest ih =>
      by_cases hany : node? = some .any
      · rw [hany]
        exact Permits.of_forall_permitted fun query => Or.inr (nodeAt?_any query)
      · exact Permits.of_child hany (ih _)

/-- **Paths behind paths.** -/
theorem Permits.trans {paths later : List (List String)} {first second third : Option Node}
    (h : Permits paths first second) (hlater : Permits later second third) :
    Permits (paths ++ later) first third := by
  have hpermitted (query : List String) :
      Permitted (paths ++ later) first query ↔
        Permitted paths first query ∨ ∃ path ∈ later, path <+: query := by
    unfold Permitted
    simp only [List.mem_append, or_and_right, exists_or]
    exact or_right_comm
  -- What the first row of paths does not permit, the second one meets as it was or as a table.
  have hsecond {query : List String} (hquery : ¬Permitted (paths ++ later) first query) :
      ¬Permitted paths first query ∧ ¬Permitted later second query := by
    rw [hpermitted, not_or] at hquery
    obtain ⟨hpaths, hprefix⟩ := hquery
    refine ⟨hpaths, ?_⟩
    rintro (hmem | hany)
    · exact hprefix hmem
    · by_cases hrelated : ∃ path ∈ paths, query <+: path
      · obtain ⟨entries, htable, -⟩ := h.extended hpaths hrelated
        rw [htable] at hany
        simp at hany
      · have hsame := h.unrelated hpaths fun path hmem hle => hrelated ⟨path, hmem, hle⟩
        exact hpaths (Or.inr (hsame ▸ hany))
  refine ⟨?_, ?_, ?_⟩
  · intro query hquery
    rcases (hpermitted query).mp hquery with hpaths | hprefix
    · exact hlater.permitted (Or.inr (h.permitted hpaths))
    · exact hlater.permitted (Or.inl hprefix)
  · intro query hquery hunrelated
    obtain ⟨hpaths, hthird⟩ := hsecond hquery
    rw [hlater.unrelated hthird fun path hmem => hunrelated path (List.mem_append_right _ hmem),
      h.unrelated hpaths fun path hmem => hunrelated path (List.mem_append_left _ hmem)]
  · intro query hquery hextended
    obtain ⟨hpaths, hthird⟩ := hsecond hquery
    by_cases hrelated : ∃ path ∈ later, query <+: path
    · obtain ⟨entries, htable, hkeys⟩ := hlater.extended hthird hrelated
      refine ⟨entries, htable, ?_⟩
      intro old hold
      by_cases hearlier : ∃ path ∈ paths, query <+: path
      · obtain ⟨middle, hmiddle, hsubset⟩ := h.extended hpaths hearlier
        exact List.Subset.trans (hsubset old hold) (hkeys middle hmiddle)
      · refine hkeys old ?_
        rw [h.unrelated hpaths fun path hmem hle => hearlier ⟨path, hmem, hle⟩, hold]
    · rw [hlater.unrelated hthird fun path hmem hle => hrelated ⟨path, hmem, hle⟩]
      refine h.extended hpaths ?_
      obtain ⟨path, hmem, hle⟩ := hextended
      rcases List.mem_append.mp hmem with hpath | hpath
      · exact ⟨path, hpath, hle⟩
      · exact absurd ⟨path, hpath, hle⟩ hrelated

/-- **A query leads somewhere behind the paths** when it did before, or when one of it and some path
starts with the other. -/
theorem Permits.isSome_iff {paths : List (List String)} {before after : Option Node}
    (h : Permits paths before after) (query : List String) :
    (nodeAt? after query).isSome
      ↔ (nodeAt? before query).isSome ∨ ∃ path ∈ paths, path <+: query ∨ query <+: path := by
  by_cases hpermitted : Permitted paths before query
  · rw [h.permitted hpermitted]
    refine iff_of_true rfl ?_
    rcases hpermitted with ⟨path, hmem, hle⟩ | hany
    · exact Or.inr ⟨path, hmem, Or.inl hle⟩
    · exact Or.inl (Option.isSome_of_eq_some hany)
  · have hprefix {path : List String} (hmem : path ∈ paths) : ¬path <+: query :=
      fun hle => hpermitted (Or.inl ⟨path, hmem, hle⟩)
    by_cases hextended : ∃ path ∈ paths, query <+: path
    · obtain ⟨entries, htable, -⟩ := h.extended hpermitted hextended
      obtain ⟨path, hmem, hle⟩ := hextended
      rw [htable]
      exact iff_of_true rfl (Or.inr ⟨path, hmem, Or.inr hle⟩)
    · rw [h.unrelated hpermitted fun path hmem hle => hextended ⟨path, hmem, hle⟩,
        or_iff_left]
      rintro ⟨path, hmem, hle | hle⟩
      · exact hprefix hmem hle
      · exact hextended ⟨path, hmem, hle⟩

/-! ## Written names -/

/-- The path that a written name permits. -/
def writtenPath (name : String) : List String :=
  Text.root name :: Text.memberPath name

/-- The paths that written names permit below a root. -/
def pathsBelow (root : String) (names : List String) : List (List String) :=
  (names.filter (Text.root · = root)).map Text.memberPath

/-- The node that the bindings of written names give a root, or the one that it has below them. -/
def boundNode? (base bindings : Entries) (root : String) : Option Node :=
  (Keyed.lookup? root bindings).or (Keyed.lookup? root base)

/-- One more written name adds its path below its root. -/
theorem boundNode?_addWritten (base bindings : Entries) (name root : String) :
    boundNode? base (addWritten base bindings name) root
      = if Text.root name = root then
          some (bindPath (boundNode? base bindings root) (Text.memberPath name))
        else boundNode? base bindings root := by
  unfold boundNode? addWritten
  split
  case isTrue hroot =>
      subst hroot
      rw [Keyed.lookup?_put_self, Option.some_or]
  case isFalse hroot => rw [Keyed.lookup?_put_of_ne (Ne.symm hroot)]

/-- **Written names permit their paths below each root.** -/
theorem permits_foldl_addWritten (base : Entries) (names : List String) (bindings : Entries)
    (root : String) :
    Permits (pathsBelow root names) (boundNode? base bindings root)
      (boundNode? base (names.foldl (addWritten base) bindings) root) := by
  unfold pathsBelow
  induction names generalizing bindings with
  | nil => exact Permits.refl _
  | cons name rest ih =>
      have hrest := ih (addWritten base bindings name)
      rw [boundNode?_addWritten] at hrest
      rw [List.foldl_cons]
      by_cases hroot : Text.root name = root
      · rw [if_pos hroot] at hrest
        rw [List.filter_cons_of_pos (by simpa using hroot), List.map_cons]
        exact (Permits.bindPath _ _).trans hrest
      · rw [if_neg hroot] at hrest
        rwa [List.filter_cons_of_neg (by simpa using hroot)]

/-- Written names bind each root once. -/
theorem nodup_keys_foldl_addWritten (base : Entries) (names : List String) {bindings : Entries}
    (h : (Keyed.keys bindings).Nodup) :
    (Keyed.keys (names.foldl (addWritten base) bindings)).Nodup := by
  induction names generalizing bindings with
  | nil => exact h
  | cons name rest ih => exact ih (Keyed.nodup_keys_put h)

/-- The entry of a root once the written names are bound. -/
theorem lookup?_putAll_writtenBindings (base : Entries) (names : List String) (root : String) :
    Keyed.lookup? root (Keyed.putAll base (writtenBindings names base))
      = boundNode? base (writtenBindings names base) root :=
  Keyed.lookup?_putAll_of_nodup (nodup_keys_foldl_addWritten base _ (by simp [Keyed.keys])) root

/-- Bound in an empty whitelist, the written names have the entries that they are bound to. -/
theorem lookup?_putAll_nil_writtenBindings (names : List String) (root : String) :
    Keyed.lookup? root (Keyed.putAll [] (writtenBindings names []))
      = Keyed.lookup? root (writtenBindings names []) := by
  rw [lookup?_putAll_writtenBindings, boundNode?]
  exact Option.or_none

/-- Some path below a root has a property when that of some written name with the root does. -/
theorem exists_mem_pathsBelow {names : List String} {root : String} {p : List String → Prop} :
    (∃ path ∈ pathsBelow root (names.mergeSort (· ≤ ·)), p path)
      ↔ ∃ written ∈ names, Text.root written = root ∧ p (Text.memberPath written) := by
  unfold pathsBelow
  constructor
  · rintro ⟨path, hmem, hpath⟩
    obtain ⟨written, hwritten, rfl⟩ := List.mem_map.mp hmem
    rw [List.mem_filter, List.mem_mergeSort, decide_eq_true_eq] at hwritten
    exact ⟨written, hwritten.1, hwritten.2, hpath⟩
  · rintro ⟨written, hwritten, hroot, hpath⟩
    refine ⟨_, List.mem_map_of_mem ?_, hpath⟩
    rw [List.mem_filter, List.mem_mergeSort, decide_eq_true_eq]
    exact ⟨hwritten, hroot⟩

/-- **Binding written names permits their paths below each root.** -/
theorem permits_writtenBindings (base : Entries) (names : List String) (root : String) :
    Permits (pathsBelow root (names.mergeSort (· ≤ ·)))
      (Keyed.lookup? root base)
      (Keyed.lookup? root (Keyed.putAll base (writtenBindings names base))) := by
  rw [lookup?_putAll_writtenBindings]
  exact permits_foldl_addWritten base (names.mergeSort (· ≤ ·)) [] root

/-- A lookup that gives a node has resolved the root. -/
theorem rootResolved_of_node? {entries : Entries} {name : String} {node : Node}
    (h : (resolve entries name).node? = some node) :
    (resolve entries name).rootResolved = true := by
  rw [resolve_rootResolved_iff]
  refine Classical.byContradiction fun hroot => ?_
  rw [resolve_eq_of_not_mem hroot] at h
  exact Option.some_ne_none node h.symm

/-- **What each name resolves to once the written names are bound.** A name that some written path
is a prefix of, or that permitted everything before, permits everything. Any other name keeps its
node unless it lies on the way to the end of a written path, where it is a table that keeps its
members. The root of a name is resolved when it was before or some written name has it. -/
theorem resolve_bindAll_writtenBindings (working : ScopedWhitelist) (names : List String)
    (name : String) :
    let bound := working.bindAll (writtenBindings names working.entries)
    let query := Text.components name
    let permitted := (∃ written ∈ names, writtenPath written <+: query)
      ∨ (working.resolve name).node? = some .any
    let extended := ∃ written ∈ names, query <+: writtenPath written ∧ query ≠ writtenPath written
    (permitted → bound.resolve name = ⟨some .any, true⟩)
      ∧ (¬permitted → ¬extended → (bound.resolve name).node? = (working.resolve name).node?)
      ∧ (¬permitted → extended →
          ∃ entries, (bound.resolve name).node? = some (.table entries)
            ∧ ∀ old, (working.resolve name).node? = some (.table old) →
              Keyed.keys old ⊆ Keyed.keys entries)
      ∧ ((bound.resolve name).rootResolved = true ↔
          (working.resolve name).rootResolved = true
            ∨ ∃ written ∈ names, Text.root written = Text.root name) := by
  intro bound query permitted extended
  obtain ⟨rest, hquery⟩ := Text.components_eq_cons name
  have hpermits := permits_writtenBindings working.entries names (Text.root name)
  have hbefore : (working.resolve name).node?
      = nodeAt? (Keyed.lookup? (Text.root name) working.entries) rest := by
    rw [ScopedWhitelist.resolve, node?_resolve, hquery, nodeAt?]
  have hentries : bound.entries
      = Keyed.putAll working.entries (writtenBindings names working.entries) :=
    ScopedWhitelist.entries_bindAll _ _
  have hafter : (bound.resolve name).node?
      = nodeAt? (Keyed.lookup? (Text.root name)
          (Keyed.putAll working.entries (writtenBindings names working.entries))) rest := by
    rw [ScopedWhitelist.resolve, node?_resolve, hquery, nodeAt?, hentries]
  have hpermitted : Permitted (pathsBelow (Text.root name) (names.mergeSort (· ≤ ·)))
      (Keyed.lookup? (Text.root name) working.entries) rest ↔ permitted := by
    rw [Permitted, exists_mem_pathsBelow, ← hbefore]
    simp only [permitted, query, hquery, writtenPath, List.cons_prefix_cons]
  have hextended : (∃ path ∈ pathsBelow (Text.root name) (names.mergeSort (· ≤ ·)), rest <+: path)
      ↔ ∃ written ∈ names, query <+: writtenPath written := by
    rw [exists_mem_pathsBelow]
    simp only [query, hquery, writtenPath, List.cons_prefix_cons, eq_comm]
  refine ⟨?_, ?_, ?_, ?_⟩
  · intro h
    have hnode : (bound.resolve name).node? = some .any := by
      rw [hafter]
      exact hpermits.permitted (hpermitted.mpr h)
    have hroot : (bound.resolve name).rootResolved = true := rootResolved_of_node? hnode
    calc bound.resolve name
        = ⟨(bound.resolve name).node?, (bound.resolve name).rootResolved⟩ := rfl
      _ = ⟨some .any, true⟩ := by rw [hnode, hroot]
  · intro h hnone
    rw [hafter, hbefore]
    refine hpermits.unrelated (fun hpath => h (hpermitted.mp hpath)) ?_
    intro path hmem hle
    obtain ⟨written, hwritten, hprefix⟩ := hextended.mp ⟨path, hmem, hle⟩
    by_cases heq : query = writtenPath written
    · exact h (Or.inl ⟨written, hwritten, heq ▸ List.prefix_rfl⟩)
    · exact hnone ⟨written, hwritten, hprefix, heq⟩
  · rintro h ⟨written, hwritten, hprefix, -⟩
    rw [hafter, hbefore]
    exact hpermits.extended (fun hpath => h (hpermitted.mp hpath))
      (hextended.mpr ⟨written, hwritten, hprefix⟩)
  · rw [ScopedWhitelist.resolve, ScopedWhitelist.resolve, resolve_rootResolved_iff,
      resolve_rootResolved_iff, hentries, Keyed.mem_keys_putAll, mem_keys_writtenBindings]

end Whitelist

end LuaGlobals
