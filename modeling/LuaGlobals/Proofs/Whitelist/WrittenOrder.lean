import LuaGlobals.Proofs.Whitelist.Distinct

/-! # The order of written names

What a row of paths makes of a node is told by which paths they are, so their order and repetitions
do not matter. A path that is permitted already changes nothing at all, not even the order of
members.

* **`Permits.same`**: two rows of the same paths make the same of a node.
* **`bindPath_eq_self`**: adding a path that is permitted.
* **`same_foldl_addWritten`** and **`putAll_writtenBindings_eq_self`**: the same for rows of written
  names.
* **`written_order_free`**: the order of written paths and names, and binding them once more. -/

namespace LuaGlobals

namespace Whitelist

variable {base bindings : Entries} {node? : Option Node} {paths others : List (List String)}
  {names order : List String}

/-! ## Paths -/

/-- **The same paths, in any order and number, lead alike**: what stands at the end of a query is
told by the paths and by what was there before. -/
theorem Permits.map_bare_eq {first second : Option Node} (h : Permits paths node? first)
    (hothers : Permits others node? second) (hpaths : ∀ path, path ∈ paths ↔ path ∈ others)
    (query : List String) :
    (nodeAt? first query).map Node.bare = (nodeAt? second query).map Node.bare := by
  have hsame : Permitted paths node? query ↔ Permitted others node? query := by
    simp only [Permitted, hpaths]
  by_cases hpermitted : Permitted paths node? query
  · rw [h.permitted hpermitted, hothers.permitted (hsame.mp hpermitted)]
  · have hother : ¬Permitted others node? query := fun hquery => hpermitted (hsame.mpr hquery)
    by_cases hextended : ∃ path ∈ paths, query <+: path
    · -- On the way to the end of a path there is a table, with whatever members.
      have hextended' : ∃ path ∈ others, query <+: path := by simpa only [hpaths] using hextended
      obtain ⟨members, hfirst, -⟩ := h.extended hpermitted hextended
      obtain ⟨members', hsecond, -⟩ := hothers.extended hother hextended'
      rw [hfirst, hsecond]
      rfl
    · have hunrelated : ∀ path ∈ paths, ¬query <+: path := by simpa using hextended
      rw [h.unrelated hpermitted hunrelated,
        hothers.unrelated hother fun path hpath => hunrelated path ((hpaths path).mpr hpath)]

/-- **Two rows of the same paths make the same of a node**, but for the order of members. -/
theorem Permits.same {first second : Node} (h : Permits paths node? (some first))
    (hothers : Permits others node? (some second)) (hpaths : ∀ path, path ∈ paths ↔ path ∈ others)
    (hfirst : first.Distinct) (hsecond : second.Distinct) : first.same second = true :=
  Node.same_of_forall_nodeAt? hfirst hsecond (h.map_bare_eq hothers hpaths)

/-- Two paths may be added in either order. -/
theorem same_bindPath_bindPath (h : ∀ node ∈ node?, node.Distinct) (path other : List String) :
    (bindPath (some (bindPath node? path)) other).same
      (bindPath (some (bindPath node? other)) path) = true := by
  have hdistinct (first second : List String) :
      (bindPath (some (bindPath node? first)) second).Distinct :=
    .bindPath (by simpa using Node.Distinct.bindPath h first) second
  have hpermits (first second : List String) :
      Permits ([first] ++ [second]) node? (some (bindPath (some (bindPath node? first)) second)) :=
    (Permits.bindPath node? first).trans (Permits.bindPath _ second)
  refine (hpermits path other).same (hpermits other path) ?_ (hdistinct _ _) (hdistinct _ _)
  intro query
  simp [or_comm]

/-- **A path that is permitted adds nothing**, and leaves all members in their places. -/
theorem bindPath_eq_self {path : List String} (h : nodeAt? node? path = some .any) :
    some (bindPath node? path) = node? := by
  induction path generalizing node? with
  | nil =>
      rw [nodeAt?_nil] at h
      rw [h, bindPath]
  | cons component rest ih =>
      cases node? with
      | none => simp at h
      | some node =>
          cases node with
          | any => rfl
          | symbol kind => simp [nodeAt?] at h
          | table entries =>
              rw [nodeAt?] at h
              have hchild := ih h
              rw [bindPath, Keyed.put_eq_self hchild.symm]

/-- A path may be added once more. -/
theorem bindPath_bindPath_self (node? : Option Node) (path : List String) :
    bindPath (some (bindPath node? path)) path = bindPath node? path := by
  have hpermitted : nodeAt? (some (bindPath node? path)) path = some .any :=
    (Permits.bindPath node? path).permitted
      (Or.inl ⟨path, List.mem_singleton_self _, List.prefix_rfl⟩)
  exact Option.some.inj (bindPath_eq_self hpermitted)

/-! ## Written names -/

/-- The paths below a root are those of the written names with this root. -/
theorem mem_pathsBelow {root : String} {path : List String} :
    path ∈ pathsBelow root names ↔
      ∃ name ∈ names, Text.root name = root ∧ Text.memberPath name = path := by
  simp [pathsBelow, and_assoc]

/-- Written names keep the names below each root distinct. -/
theorem distinct_boundNode? {root : String}
    (h : ∀ node ∈ boundNode? base bindings root, node.Distinct) (names : List String) :
    ∀ node ∈ boundNode? base (names.foldl (addWritten base) bindings) root, node.Distinct := by
  induction names generalizing bindings with
  | nil => exact h
  | cons name rest ih =>
      rw [List.foldl_cons]
      apply ih
      rw [boundNode?_addWritten]
      split
      case isTrue => simpa using Node.Distinct.bindPath h _
      case isFalse => exact h

/-- **Bindings of written names have distinct names.** -/
theorem distinct_foldl_addWritten (hbase : (Node.table base).Distinct) (names : List String) :
    (Node.table (names.foldl (addWritten base) [])).Distinct := by
  refine Node.distinct_table_iff.mpr
    ⟨nodup_keys_foldl_addWritten base names List.nodup_nil, ?_⟩
  intro root node hnode
  have hroot : ∀ node ∈ boundNode? base [] root, node.Distinct := hbase.of_lookup?
  apply distinct_boundNode? hroot names
  rw [boundNode?, Option.mem_def.mp hnode]
  rfl

/-- The root of a written name is bound to what the paths below it make of it. -/
theorem lookup?_foldl_addWritten {root : String} (h : ∃ name ∈ names, Text.root name = root) :
    Keyed.lookup? root (names.foldl (addWritten base) [])
      = boundNode? base (names.foldl (addWritten base) []) root := by
  have hbound : root ∈ Keyed.keys (names.foldl (addWritten base) []) :=
    mem_keys_foldl_addWritten.mpr (Or.inr h)
  obtain ⟨node, hnode⟩ := Option.isSome_iff_exists.mp ((Keyed.lookup?_isSome_iff _ _).mpr hbound)
  rw [boundNode?, hnode, Option.some_or]

/-- **The same names in any order and number have the same bindings**, but for the order of roots
and members. -/
theorem same_foldl_addWritten (hbase : (Node.table base).Distinct)
    (h : ∀ name, name ∈ order ↔ name ∈ names) :
    (Node.table (order.foldl (addWritten base) [])).same
      (.table (names.foldl (addWritten base) [])) = true := by
  refine Node.same_of_forall_nodeAt? (distinct_foldl_addWritten hbase _)
    (distinct_foldl_addWritten hbase _) ?_
  rintro (_ | ⟨root, query⟩)
  · rfl
  · rw [nodeAt?, nodeAt?]
    by_cases hroot : ∃ name ∈ names, Text.root name = root
    · have hroot' : ∃ name ∈ order, Text.root name = root := by simpa only [h] using hroot
      rw [lookup?_foldl_addWritten hroot, lookup?_foldl_addWritten hroot']
      refine (permits_foldl_addWritten base order [] root).map_bare_eq
        (permits_foldl_addWritten base names [] root) ?_ query
      intro path
      simp only [mem_pathsBelow, h]
    · -- A root that no written name has is bound by neither.
      have hnone {names : List String} (hnames : ¬∃ name ∈ names, Text.root name = root) :
          Keyed.lookup? root (names.foldl (addWritten base) []) = none := by
        rw [Keyed.lookup?_eq_none_iff, mem_keys_foldl_addWritten]
        simpa [Keyed.keys] using hnames
      rw [hnone hroot, hnone (by simpa only [h] using hroot)]

/-! ## Names that are permitted already -/

/-- Names that a whitelist permits are bound to the nodes that it has. -/
theorem lookup?_of_mem_foldl_addWritten
    (hpermitted : ∀ name ∈ names,
      nodeAt? (Keyed.lookup? (Text.root name) base) (Text.memberPath name) = some .any)
    (hbindings : ∀ entry ∈ bindings, Keyed.lookup? entry.1 base = some entry.2) :
    ∀ entry ∈ names.foldl (addWritten base) bindings,
      Keyed.lookup? entry.1 base = some entry.2 := by
  induction names generalizing bindings with
  | nil => exact hbindings
  | cons name rest ih =>
      obtain ⟨hname, hrest⟩ := List.forall_mem_cons.mp hpermitted
      rw [List.foldl_cons]
      apply ih hrest
      -- What the root is bound to so far is what the whitelist has there.
      have hcurrent : (Keyed.lookup? (Text.root name) bindings).or
          (Keyed.lookup? (Text.root name) base) = Keyed.lookup? (Text.root name) base := by
        cases hbound : Keyed.lookup? (Text.root name) bindings with
        | none => rfl
        | some node => rw [hbindings _ (Keyed.mem_of_lookup? hbound), Option.some_or]
      intro entry hentry
      rw [addWritten, hcurrent] at hentry
      rcases Keyed.mem_put hentry with rfl | hold
      · exact (bindPath_eq_self hname).symm
      · exact hbindings entry hold

/-- **Binding names that are permitted changes nothing.** -/
theorem putAll_writtenBindings_eq_self
    (hpermitted : ∀ name ∈ names,
      nodeAt? (Keyed.lookup? (Text.root name) base) (Text.memberPath name) = some .any) :
    Keyed.putAll base (writtenBindings names base) = base := by
  refine Keyed.putAll_eq_self (lookup?_of_mem_foldl_addWritten ?_ (by simp))
  simpa using hpermitted

/-- Which roots are bound, and in which order, does not depend on the whitelist. -/
theorem keys_foldl_addWritten {other bindings' : Entries}
    (h : Keyed.keys bindings = Keyed.keys bindings') :
    Keyed.keys (names.foldl (addWritten base) bindings)
      = Keyed.keys (names.foldl (addWritten other) bindings') := by
  induction names generalizing bindings bindings' with
  | nil => exact h
  | cons name rest ih =>
      rw [List.foldl_cons, List.foldl_cons]
      apply ih
      rw [addWritten, addWritten, Keyed.keys_put, Keyed.keys_put, h]

/-- Written names are permitted below what their roots are bound to. -/
theorem nodeAt?_boundNode? {name : String} (h : name ∈ names) (base : Entries) :
    nodeAt? (boundNode? base (names.foldl (addWritten base) []) (Text.root name))
      (Text.memberPath name) = some .any :=
  (permits_foldl_addWritten base names [] (Text.root name)).permitted
    (Or.inl ⟨_, mem_pathsBelow.mpr ⟨name, h, rfl, rfl⟩, List.prefix_rfl⟩)

/-- **Bindings are their own bindings**: looked up in themselves, the names change nothing. -/
theorem writtenBindings_self (names : List String) (base : Entries) :
    writtenBindings names (writtenBindings names base) = writtenBindings names base := by
  refine Keyed.eq_of_keys_eq (keys_foldl_addWritten rfl)
    (nodup_keys_foldl_addWritten base _ List.nodup_nil)
    (lookup?_of_mem_foldl_addWritten ?_ (by simp))
  intro name hname
  rw [writtenBindings, lookup?_foldl_addWritten ⟨name, hname, rfl⟩]
  exact nodeAt?_boundNode? hname base

/-- **Names that were bound once may be bound once more.** -/
theorem putAll_putAll_writtenBindings (names : List String) (base : Entries) :
    let bound := Keyed.putAll base (writtenBindings names base)
    Keyed.putAll bound (writtenBindings names bound) = bound := by
  intro bound
  apply putAll_writtenBindings_eq_self
  intro name hname
  rw [lookup?_putAll_writtenBindings]
  exact nodeAt?_boundNode? (List.mem_mergeSort.mpr hname) base

/-- **The order of written paths and names does not matter.** Below any node, two paths may be added
in either order, and one path twice. The bindings of written names, whatever they are looked up in,
are the same for all rows of the same names and for every order in which these are taken. Binding
the names once more, over their own bindings or over the whitelist that they are bound in, changes
nothing. -/
theorem written_order_free (node? : Option Node) (base : Entries)
    (hnode : ∀ node ∈ node?, node.Distinct) (hbase : (Node.table base).Distinct) :
    (∀ path other,
      (bindPath (some (bindPath node? path)) other).same
        (bindPath (some (bindPath node? other)) path) = true)
      ∧ (∀ path, bindPath (some (bindPath node? path)) path = bindPath node? path)
      ∧ (∀ names order : List String, (∀ name, name ∈ order ↔ name ∈ names) →
          (Node.table (writtenBindings order base)).same
              (.table (writtenBindings names base)) = true
            ∧ (Node.table (order.foldl (addWritten base) [])).same
              (.table (writtenBindings names base)) = true)
      ∧ ∀ names,
          writtenBindings names (writtenBindings names base) = writtenBindings names base
            ∧ ∀ working : ScopedWhitelist,
              let bound := working.bindAll (writtenBindings names working.entries)
              (bound.bindAll (writtenBindings names bound.entries)).entries = bound.entries := by
  refine ⟨same_bindPath_bindPath hnode, bindPath_bindPath_self node?, ?_, ?_⟩
  · intro names order h
    constructor
    · apply same_foldl_addWritten hbase
      simpa using h
    · apply same_foldl_addWritten hbase
      simpa using h
  · intro names
    refine ⟨writtenBindings_self names base, ?_⟩
    intro working bound
    have hbound : bound.entries
        = Keyed.putAll working.entries (writtenBindings names working.entries) :=
      ScopedWhitelist.entries_bindAll _ _
    rw [ScopedWhitelist.entries_bindAll, hbound]
    exact putAll_putAll_writtenBindings names working.entries

/-- The members of a symbol that becomes a table stand in the order in which they were added, which
does not matter. -/
theorem symbol_order_free :
    let first := bindPath (some (bindPath (some (.symbol "function")) ["b"])) ["a", "c"]
    let second := bindPath (some (bindPath (some (.symbol "function")) ["a", "c"])) ["b"]
    (∀ node ∈ some (Node.symbol "function"), node.Distinct)
      ∧ (Node.table [("string", .table [("format", .symbol "function")])]).Distinct
      ∧ first = .table [("b", .any), ("a", .table [("c", .any)])]
      ∧ second = .table [("a", .table [("c", .any)]), ("b", .any)]
      ∧ first.same second = true := by
  have hnode : ∀ node ∈ some (Node.symbol "function"), node.Distinct := by simp
  have hbase : (Node.table [("string", .table [("format", .symbol "function")])]).Distinct := by
    decide
  exact ⟨hnode, hbase, rfl, rfl, (written_order_free _ _ hnode hbase).1 ["b"] ["a", "c"]⟩

end Whitelist

end LuaGlobals
