import LuaGlobals.Proofs.Whitelist.Distinct
import LuaGlobals.Whitelist.File

/-! # What layering does to lookups

Where both whitelists have a table, the layer is laid over what lies below it name by name; anywhere
else the layer hides what lies below. So a lookup follows the layer as far as it leads, and only
where it ends in a table that lacks a name does the lookup go on in the whitelist below, if that has
tables all the way.

* `overlay?` lays a node that may be missing over another one.
* **`lookup?_overlayAll`**: entries laid over others have, under each name, the one node laid over
  the other.
* **`nodeAt?_overlay?`**: what stands at the end of a path that the layer follows.
* **`Node.Distinct.merge`**, **`merge_self`**, **`merge_nil_left`**: the laws of layering.
* **`lookup_in_layers`**: each lookup in a layered whitelist, by what the two give. -/

namespace LuaGlobals.Whitelist

variable {base layer upper lower : Entries} {node : Node} {upper? lower? node? : Option Node}

/-! ## Roots of layered whitelists -/

/-- Entries laid over others add their keys and remove none. -/
theorem mem_keys_overlayAll {key : String} :
    key ∈ Keyed.keys (overlayAll upper lower)
      ↔ key ∈ Keyed.keys lower ∨ key ∈ Keyed.keys upper := by
  induction upper generalizing lower with
  | nil => simp [overlayAll, Keyed.keys]
  | cons entry rest ih =>
      obtain ⟨name, node⟩ := entry
      have hkeys : Keyed.keys ((name, node) :: rest) = name :: Keyed.keys rest := rfl
      rw [overlayAll, ih, Keyed.mem_keys_put, hkeys, List.mem_cons]
      tauto

/-- **The roots of a layered whitelist** are those of the base and those of the layers. -/
theorem mem_keys_mergeAll {key : String} {layers : List Entries} :
    key ∈ Keyed.keys (mergeAll base layers)
      ↔ key ∈ Keyed.keys base ∨ ∃ layer ∈ layers, key ∈ Keyed.keys layer := by
  induction layers generalizing base with
  | nil => simp [mergeAll]
  | cons layer rest ih =>
      have hfirst : mergeAll base (layer :: rest) = mergeAll (merge base layer) rest := rfl
      rw [hfirst, ih, merge, mem_keys_overlayAll]
      simp only [List.mem_cons, exists_eq_or_imp, or_assoc]

/-! ## One name -/

/-- A node that may be missing, laid over another one. -/
def overlay? : (upper? lower? : Option Node) → Option Node
  | some upper, lower? => some (upper.overlay lower?)
  | none, lower? => lower?

/-- Over anything but a table a node stays as it is. -/
theorem overlay_eq_self (h : ∀ members, lower? ≠ some (.table members)) :
    node.overlay lower? = node := by
  match node, lower? with
  | .any, _ => rfl
  | .symbol _, _ => rfl
  | .table _, none => rfl
  | .table _, some .any => rfl
  | .table _, some (.symbol _) => rfl
  | .table _, some (.table members) => exact absurd rfl (h members)

/-- Anything but a table hides what lies below it. -/
theorem overlay_of_ne_table (h : ∀ members, node ≠ .table members) :
    node.overlay lower? = node := by
  match node with
  | .any => rfl
  | .symbol _ => rfl
  | .table members => exact absurd rfl (h members)

/-- **Under each name** the node of the layer lies over that of the whitelist below. -/
theorem lookup?_overlayAll (h : (Keyed.keys upper).Nodup) (name : String) :
    Keyed.lookup? name (overlayAll upper lower)
      = overlay? (Keyed.lookup? name upper) (Keyed.lookup? name lower) := by
  induction upper generalizing lower with
  | nil => rfl
  | cons entry rest ih =>
      obtain ⟨key, node⟩ := entry
      obtain ⟨hnew, hrest⟩ := List.nodup_cons.mp h
      rw [overlayAll, ih hrest, Keyed.lookup?]
      split
      case isTrue hkey =>
          -- The other names of the layer are different from this one.
          subst hkey
          have hnone : Keyed.lookup? key rest = none := Keyed.lookup?_eq_none_iff.mpr hnew
          rw [hnone, Keyed.lookup?_put_self]
          rfl
      case isFalse hkey => rw [Keyed.lookup?_put_of_ne (Ne.symm hkey)]

/-! ## Paths -/

/-- Following a path in two parts. -/
theorem nodeAt?_append (node? : Option Node) (path rest : List String) :
    nodeAt? node? (path ++ rest) = nodeAt? (nodeAt? node? path) rest := by
  induction path generalizing node? with
  | nil => simp
  | cons component path ih =>
      match node? with
      | none => simp
      | some .any => simp
      | some (.symbol _) =>
          rw [List.cons_append, nodeAt?, nodeAt?]
          exact (nodeAt?_none rest).symm
      | some (.table _) =>
          rw [List.cons_append, nodeAt?, nodeAt?]
          exact ih _

/-- Whether a path leads to a table. -/
def TableAt (entries : Entries) (path : List String) : Prop :=
  ∃ members, nodeAt? (some (.table entries)) path = some (.table members)

/-- On the way to a table there are tables only. -/
theorem TableAt.of_prefix {path shorter : List String} (h : TableAt base path)
    (hle : shorter <+: path) : TableAt base shorter := by
  obtain ⟨members, hpath⟩ := h
  obtain ⟨rest, rfl⟩ := hle
  rw [nodeAt?_append] at hpath
  match hshorter : nodeAt? (some (.table base)) shorter with
  | none => simp [hshorter] at hpath
  | some .any => simp [hshorter] at hpath
  | some (.symbol _) => cases rest <;> simp [hshorter, nodeAt?] at hpath
  | some (.table members) => exact ⟨members, hshorter⟩

/-- Below what is no table there is none. -/
theorem nodeAt?_cons_ne_table (component : String) (rest : List String)
    (h : ∀ members, node? ≠ some (.table members)) :
    ∀ members, nodeAt? node? (component :: rest) ≠ some (.table members) := by
  cases node? with
  | none => simp
  | some node =>
      cases node with
      | any => simp
      | symbol kind => simp [nodeAt?]
      | table members => exact absurd rfl (h members)

/-- **Where a path leads to a node of the layer**, that node lies over what the path leads to in the
base. -/
theorem nodeAt?_overlay? {path : List String} (hdistinct : ∀ node ∈ upper?, node.Distinct)
    (h : nodeAt? upper? path = some node) :
    nodeAt? (overlay? upper? lower?) path = some (node.overlay (nodeAt? lower? path)) := by
  induction path generalizing upper? lower? with
  | nil =>
      rw [nodeAt?_nil] at h
      rw [h, nodeAt?_nil, nodeAt?_nil, overlay?]
  | cons component rest ih =>
      -- A symbol and a missing node have nothing below, and anything goes below `any`.
      rcases upper? with _ | _ | kind | upper
      · simp at h
      · obtain rfl : Node.any = node := by simpa using h
        exact nodeAt?_any _
      · simp [nodeAt?] at h
      · have hupper : (Node.table upper).Distinct := hdistinct _ rfl
        rw [nodeAt?] at h
        by_cases hlower : ∃ lower, lower? = some (.table lower)
        · -- Both are tables, so the path goes on below the same name in both.
          obtain ⟨lower, rfl⟩ := hlower
          have hname : Keyed.lookup? component (overlayAll upper lower)
              = overlay? (Keyed.lookup? component upper) (Keyed.lookup? component lower) :=
            lookup?_overlayAll hupper.nodup_keys component
          rw [overlay?, Node.overlay, nodeAt?, nodeAt?, hname]
          exact ih hupper.of_lookup? h
        · -- The base has no table here, and so none further down.
          have hhere : ∀ members, lower? ≠ some (.table members) := not_exists.mp hlower
          have hbelow := nodeAt?_cons_ne_table component rest hhere
          rw [overlay?, overlay_eq_self hhere, overlay_eq_self hbelow, nodeAt?]
          exact h

/-- The same, from the roots of two whitelists on. -/
theorem nodeAt?_merge {path : List String} (hlayer : (Node.table layer).Distinct)
    (h : nodeAt? (some (.table layer)) path = some node) :
    nodeAt? (some (.table (merge base layer))) path
      = some (node.overlay (nodeAt? (some (.table base)) path)) := by
  show nodeAt? (overlay? (some (.table layer)) (some (.table base))) path = _
  exact nodeAt?_overlay? (by simpa using hlayer) h

/-- **Where the layer lacks a name of the path**, the base is asked if it has a table there. -/
theorem nodeAt?_merge_of_lacking {front : List String} {key : String} {members : Entries}
    (hlayer : (Node.table layer).Distinct)
    (hfront : nodeAt? (some (.table layer)) front = some (.table members))
    (hlacking : Keyed.lookup? key members = none) (base : Entries) (rest : List String) :
    (TableAt base front →
        nodeAt? (some (.table (merge base layer))) (front ++ key :: rest)
          = nodeAt? (some (.table base)) (front ++ key :: rest))
      ∧ (¬TableAt base front →
          nodeAt? (some (.table (merge base layer))) (front ++ key :: rest) = none) := by
  rw [nodeAt?_append, nodeAt?_append, nodeAt?_merge hlayer hfront]
  constructor
  · rintro ⟨old, hold⟩
    have hmembers : (Node.table members).Distinct :=
      Node.Distinct.of_nodeAt? (by simpa using hlayer) _ hfront
    rw [hold, Node.overlay, nodeAt?, nodeAt?, lookup?_overlayAll hmembers.nodup_keys, hlacking,
      overlay?]
  · intro hnone
    rw [overlay_eq_self (not_exists.mp hnone), nodeAt?, hlacking, nodeAt?_none]

/-! ## Laws of layering -/

/-- Laying entries over others keeps the names distinct, given that it does so below each name. -/
theorem distinct_overlayAll (hlower : (Node.table lower).Distinct)
    (hmembers : ∀ entry ∈ upper, ∀ {lower? : Option Node}, (∀ node ∈ lower?, node.Distinct) →
      (entry.2.overlay lower?).Distinct) :
    (Node.table (overlayAll upper lower)).Distinct := by
  induction upper generalizing lower with
  | nil => exact hlower
  | cons entry rest ih =>
      obtain ⟨hfirst, hrest⟩ := List.forall_mem_cons.mp hmembers
      rw [overlayAll]
      exact ih (hlower.put (hfirst hlower.of_lookup?) entry.1) hrest

/-- Laying a node over another one keeps the names distinct. -/
theorem Node.Distinct.overlay (h : node.Distinct) (hlower : ∀ node ∈ lower?, node.Distinct) :
    (node.overlay lower?).Distinct := by
  induction node using Node.induction generalizing lower? with
  | any => exact h
  | symbol identity => exact h
  | table upper ih =>
      by_cases htable : ∃ lower, lower? = some (.table lower)
      · obtain ⟨lower, rfl⟩ := htable
        refine distinct_overlayAll (hlower _ rfl) ?_
        intro entry hentry lower? hbelow
        exact ih entry hentry (h.of_lookup? _ (Keyed.lookup?_of_mem h.nodup_keys hentry)) hbelow
      · rw [overlay_eq_self (not_exists.mp htable)]
        exact h

/-- **A layered whitelist has distinct names.** -/
theorem Node.Distinct.merge (hbase : (Node.table base).Distinct)
    (hlayer : (Node.table layer).Distinct) : (Node.table (merge base layer)).Distinct := by
  show ((Node.table layer).overlay (some (.table base))).Distinct
  exact hlayer.overlay (by simpa using hbase)

/-- Entries that are there already change nothing when they are laid over. -/
theorem overlayAll_eq_self
    (h : ∀ entry ∈ upper, Keyed.lookup? entry.1 lower = some entry.2
      ∧ entry.2.overlay (some entry.2) = entry.2) :
    overlayAll upper lower = lower := by
  induction upper with
  | nil => rfl
  | cons entry rest ih =>
      obtain ⟨⟨hfound, hself⟩, hrest⟩ := List.forall_mem_cons.mp h
      rw [overlayAll, hfound, hself, Keyed.put_eq_self hfound]
      exact ih hrest

/-- A node laid over itself stays as it is. -/
theorem Node.overlay_self (h : node.Distinct) : node.overlay (some node) = node := by
  induction node using Node.induction with
  | any => rfl
  | symbol identity => rfl
  | table entries ih =>
      rw [overlay, overlayAll_eq_self]
      intro entry hentry
      have hfound := Keyed.lookup?_of_mem h.nodup_keys hentry
      exact ⟨hfound, ih entry hentry (h.of_lookup? _ hfound)⟩

/-- **A whitelist laid over itself stays as it is.** -/
theorem merge_self (h : (Node.table base).Distinct) : merge base base = base :=
  Node.table.inj (Node.overlay_self h)

/-- Entries with new names are put at the end. -/
theorem overlayAll_eq_append (hkeys : (Keyed.keys upper).Nodup)
    (hnew : ∀ name ∈ Keyed.keys upper, name ∉ Keyed.keys lower) :
    overlayAll upper lower = lower ++ upper := by
  induction upper generalizing lower with
  | nil => simp [overlayAll]
  | cons entry rest ih =>
      obtain ⟨hfirst, hrest⟩ := List.nodup_cons.mp hkeys
      have hnone : Keyed.lookup? entry.1 lower = none :=
        Keyed.lookup?_eq_none_iff.mpr (hnew _ List.mem_cons_self)
      rw [overlayAll, hnone, overlay_eq_self (by simp), Keyed.put_of_lookup?_eq_none hnone,
        ih hrest, List.append_assoc, List.singleton_append]
      -- No later name of the layer is the one that was just put.
      intro name hname hput
      rw [Keyed.keys, List.map_append, List.mem_append] at hput
      rcases hput with hold | hput
      · exact hnew name (List.mem_cons_of_mem _ hname) hold
      · rw [List.map_singleton, List.mem_singleton] at hput
        exact hfirst (hput ▸ hname)

/-- **Over the empty whitelist** there is the layer alone. -/
theorem merge_nil_left (h : (Keyed.keys layer).Nodup) : merge [] layer = layer := by
  rw [merge, overlayAll_eq_append h (by simp [Keyed.keys]), List.nil_append]

/-! ## Lookups -/

/-- **Each lookup in a layered whitelist.** The root of a name is resolved when one of the two
resolves it. A symbol, or a node that permits all names below it, is found as the layer has it, and
nothing is found below a symbol of the layer. Where a table of the layer lacks the next component,
the name has the node that it has in the base if the base has tables up to there, and else none. A
table of the layer lies over a table of the base, and else it is found alone. Layering a whitelist
over itself, and over or under the empty one, changes nothing, and names stay distinct. -/
theorem lookup_in_layers (base layer : Entries) (hbase : (Node.table base).Distinct)
    (hlayer : (Node.table layer).Distinct) :
    (∀ name,
      let merged := resolve (merge base layer) name
      let below := resolve base name
      let above := resolve layer name
      merged.rootResolved = (below.rootResolved || above.rootResolved)
        ∧ (∀ node, above.node? = some node → (∀ members, node ≠ .table members) →
            merged.node? = some node)
        ∧ (∀ front key rest, Text.components name = front ++ key :: rest →
            (∀ identity, nodeAt? (some (.table layer)) front = some (.symbol identity) →
              merged.node? = none)
            ∧ ∀ members, nodeAt? (some (.table layer)) front = some (.table members) →
              Keyed.lookup? key members = none →
                ((∀ shorter, shorter <+: front → TableAt base shorter) →
                  merged.node? = below.node?)
                ∧ ((¬∀ shorter, shorter <+: front → TableAt base shorter) → merged.node? = none))
        ∧ ∀ members, above.node? = some (.table members) →
            (∀ old, below.node? = some (.table old) →
              merged.node? = some (.table (merge old members)))
            ∧ ((∀ old, below.node? ≠ some (.table old)) → merged.node? = some (.table members)))
      ∧ merge base base = base ∧ merge [] base = base ∧ merge base [] = base
      ∧ (Node.table (merge base layer)).Distinct := by
  refine ⟨?_, merge_self hbase, merge_nil_left hbase.nodup_keys, rfl, hbase.merge hlayer⟩
  intro name merged below above
  have hmerged : merged.node? = nodeAt? (some (.table (merge base layer))) (Text.components name) :=
    node?_resolve _ _
  have hbelow : below.node? = nodeAt? (some (.table base)) (Text.components name) :=
    node?_resolve _ _
  -- Wherever the name leads in the layer, that node lies over what it leads to in the base.
  have hfollowed {node : Node} (h : above.node? = some node) :
      merged.node? = some (node.overlay below.node?) := by
    rw [hmerged, hbelow]
    exact nodeAt?_merge hlayer (by rw [← node?_resolve]; exact h)
  refine ⟨?_, ?_, ?_, ?_⟩
  · rw [Bool.eq_iff_iff, Bool.or_eq_true]
    simp only [merged, below, above, resolve_rootResolved_iff]
    exact mem_keys_overlayAll
  · intro node habove hnode
    rw [hfollowed habove, overlay_of_ne_table hnode]
  · intro front key rest hname
    rw [hname] at hmerged hbelow
    refine ⟨?_, ?_⟩
    · intro identity hfront
      -- The symbol is found in the layered whitelist as well, and has no members.
      rw [hmerged, nodeAt?_append, nodeAt?_merge hlayer hfront, Node.overlay, nodeAt?]
      simp
    · intro members hfront hlacking
      obtain ⟨htable, hnone⟩ := nodeAt?_merge_of_lacking hlayer hfront hlacking base rest
      rw [hmerged, hbelow]
      refine ⟨fun hshorter => htable (hshorter front List.prefix_rfl), fun hshorter => ?_⟩
      exact hnone fun hfront => hshorter fun shorter hle => hfront.of_prefix hle
  · intro members habove
    rw [hfollowed habove]
    refine ⟨?_, ?_⟩
    · intro old hold
      rw [hold]
      rfl
    · intro hnone
      rw [overlay_eq_self hnone]

/-- A whitelist that permits all names below one of its roots. -/
def openBase : Entries :=
  [("string", .table [("format", .symbol "function"), ("len", .symbol "function")]), ("os", .any)]

/-- A layer that adds to one table of `openBase` and hides the root that permits all names. -/
def narrowLayer : Entries :=
  [("string", .table [("trim", .any)]), ("os", .table [("time", .symbol "function")])]

/-- A member that only the base has is found in a table of both, and no longer below a root that the
layer hides. -/
theorem narrowLayer_hides_clock :
    (Node.table openBase).Distinct ∧ (Node.table narrowLayer).Distinct
      ∧ (resolve (merge openBase narrowLayer) "string.len").node? = some (.symbol "function")
      ∧ (resolve openBase "os.clock").node? = some .any
      ∧ (resolve (merge openBase narrowLayer) "os.clock").node? = none := by
  have hbase : (Node.table openBase).Distinct := by decide
  have hlayer : (Node.table narrowLayer).Distinct := by decide
  have hlookups := (lookup_in_layers openBase narrowLayer hbase hlayer).1
  refine ⟨hbase, hlayer, ?_, by cbv, ?_⟩
  · have hlen := ((hlookups "string.len").2.2.1 ["string"] "len" [] (by decide +kernel)).2 _ rfl rfl
    have hstring : TableAt openBase ["string"] := ⟨_, rfl⟩
    rw [hlen.1 fun shorter hle => hstring.of_prefix hle]
    cbv
  · have hclock := ((hlookups "os.clock").2.2.1 ["os"] "clock" [] (by decide +kernel)).2 _ rfl rfl
    refine hclock.2 fun htables => ?_
    -- The base has no table under the root, where all names are permitted.
    obtain ⟨members, hmembers⟩ := htables ["os"] List.prefix_rfl
    cases hmembers

end LuaGlobals.Whitelist
