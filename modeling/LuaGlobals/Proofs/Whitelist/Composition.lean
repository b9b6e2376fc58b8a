import LuaGlobals.Proofs.Whitelist.Merge

/-! # Lookups in two steps

A lookup follows a name component by component. It can stop at any dot of the name and go on from
the node that it has found there.

* `resolve_member_eq`: the second step starts from the node of the first.
* `isSome_nodeAt?_of_prefix`: whatever leads somewhere leads through nodes all the way.
* **`resolve_member`**: what a lookup gives, by what it gives up to a dot. -/

namespace LuaGlobals.Whitelist

open Text

/-- A member has the node that its key leads to from the node of its owner, and its root is resolved
when that of the owner is. -/
theorem resolve_member_eq (entries : Entries) (owner key : String) :
    resolve entries (member owner key) =
      ⟨nodeAt? (resolve entries owner).node? (components key),
        (resolve entries owner).rootResolved⟩ := by
  have hnode : (resolve entries (member owner key)).node?
      = nodeAt? (resolve entries owner).node? (components key) := by
    rw [node?_resolve, node?_resolve, components_member, nodeAt?_append]
  have hroot : (resolve entries (member owner key)).rootResolved
      = (resolve entries owner).rootResolved := by
    rw [Bool.eq_iff_iff, resolve_rootResolved_iff, resolve_rootResolved_iff, root_member]
  rw [← hnode, ← hroot]

/-- A path that leads to a node leads through nodes all the way. -/
theorem isSome_nodeAt?_of_prefix {node? : Option Node} {shorter path : List String}
    (hstart : shorter <+: path) (h : (nodeAt? node? path).isSome = true) :
    (nodeAt? node? shorter).isSome = true := by
  obtain ⟨rest, rfl⟩ := hstart
  rw [nodeAt?_append] at h
  cases hshorter : nodeAt? node? shorter with
  | none => rw [hshorter, nodeAt?_none] at h; exact h
  | some node => rfl

/-- Nothing is found below a symbol. -/
theorem nodeAt?_symbol_components (identity name : String) :
    nodeAt? (some (.symbol identity)) (components name) = none := by
  obtain ⟨rest, hrest⟩ := components_eq_cons name
  rw [hrest, nodeAt?]

/-- **A lookup in two steps.** What a whitelist has for a member is settled by what it has for the
owner: below a node that permits everything, everything; below a table, what the key gives as a
lookup of its own, with the root resolved; below a symbol, nothing; and nothing where the owner has
no node, with the root resolved or not as it was. So every name whose components start those of a
permitted name is permitted. -/
theorem resolve_member (entries : Entries) :
    (∀ owner key, resolve entries (member owner key) =
      match resolve entries owner with
      | ⟨some .any, _⟩ => ⟨some .any, true⟩
      | ⟨some (.table members), _⟩ => ⟨(resolve members key).node?, true⟩
      | ⟨some (.symbol _), _⟩ => ⟨none, true⟩
      | ⟨none, rootResolved⟩ => ⟨none, rootResolved⟩)
      ∧ ∀ shorter name, components shorter <+: components name →
          (resolve entries name).node?.isSome = true →
            (resolve entries shorter).node?.isSome = true := by
  refine ⟨?_, ?_⟩
  · intro owner key
    have hresolved : ∀ node, (resolve entries owner).node? = some node →
        (resolve entries owner).rootResolved = true := fun _ => rootResolved_of_node?
    rw [resolve_member_eq]
    generalize resolve entries owner = front at hresolved
    match front with
    | ⟨none, _⟩ => rw [nodeAt?_none]
    | ⟨some .any, _⟩ => rw [nodeAt?_any, hresolved _ rfl]
    | ⟨some (.symbol identity), _⟩ => rw [nodeAt?_symbol_components, hresolved _ rfl]
    | ⟨some (.table members), _⟩ => rw [← node?_resolve, hresolved _ rfl]
  · intro shorter name hstart h
    rw [node?_resolve] at h ⊢
    exact isSome_nodeAt?_of_prefix hstart h

/-- A function of a table is permitted, and so is the table. -/
theorem openBase_permits_prefix :
    components "string" <+: components "string.len"
      ∧ (resolve openBase "string.len").node?.isSome = true
      ∧ (resolve openBase "string").node?.isSome = true := by
  have hstart : components "string" <+: components "string.len" := by decide +kernel
  have hpermitted : (resolve openBase "string.len").node?.isSome = true := by cbv
  exact ⟨hstart, hpermitted, (resolve_member openBase).2 _ _ hstart hpermitted⟩

end LuaGlobals.Whitelist
