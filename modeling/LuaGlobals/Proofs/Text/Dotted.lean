import LuaGlobals.Text.Dotted

/-! # How a dotted name falls into components

A text has no dot, or its first dot parts it in two; each function on dotted names is said on both
kinds.

* **`splitDots_append`**: the pieces of a text with a dot.
* `components_eq_cons`: the first component of a name is its root.
* `root_cons_memberPath_prefix`: behind the root come the members below it.
* **`exists_toList_eq_of_ne_root`**: what a name that is not its own root looks like.
* **`components_member`**: the components of a member are those of its table and of its key. -/

namespace LuaGlobals.Text

/-! ## Texts -/

/-- A text without dots has one piece. -/
theorem splitDots_of_not_mem {text : List Char} (h : '.' ∉ text) : splitDots text = [text] := by
  induction text with
  | nil => rfl
  | cons c rest ih =>
      rw [List.mem_cons, not_or] at h
      rw [splitDots, if_neg (Ne.symm h.1), ih h.2]

/-- **The first dot ends the first piece.** -/
theorem splitDots_append {before : List Char} (h : '.' ∉ before) (after : List Char) :
    splitDots (before ++ '.' :: after) = before :: splitDots after := by
  induction before with
  | nil => rw [List.nil_append, splitDots, if_pos rfl]
  | cons c rest ih =>
      rw [List.mem_cons, not_or] at h
      rw [List.cons_append, splitDots, if_neg (Ne.symm h.1), ih h.2]

/-- The pieces of two texts with a dot between them are those of the one and of the other. -/
theorem splitDots_append_dot (before after : List Char) :
    splitDots (before ++ '.' :: after) = splitDots before ++ splitDots after := by
  induction before with
  | nil => rfl
  | cons c rest ih =>
      rw [List.cons_append, splitDots, splitDots, ih]
      split
      · rw [List.cons_append]
      · -- The character joins the first piece of what follows it.
        obtain ⟨piece, pieces, hpieces⟩ := List.exists_cons_of_ne_nil (splitDots_ne_nil rest)
        rw [hpieces, List.cons_append]
        rfl

/-- Up to its first dot a text is taken character by character. -/
theorem beforeDot_cons (c : Char) (rest : List Char) :
    beforeDot (c :: rest) = if c = '.' then [] else c :: beforeDot rest := by
  unfold beforeDot
  by_cases h : c = '.'
  · rw [if_pos h, List.takeWhile_cons_of_neg (by simp [h])]
  · rw [if_neg h, List.takeWhile_cons_of_pos (by simp [h])]

/-- A text without dots is all before its first dot. -/
theorem beforeDot_of_not_mem {text : List Char} (h : '.' ∉ text) : beforeDot text = text := by
  induction text with
  | nil => rfl
  | cons c rest ih =>
      rw [List.mem_cons, not_or] at h
      rw [beforeDot_cons, if_neg (Ne.symm h.1), ih h.2]

/-- What stands before the first dot. -/
theorem beforeDot_append {before : List Char} (h : '.' ∉ before) (after : List Char) :
    beforeDot (before ++ '.' :: after) = before := by
  induction before with
  | nil => rw [List.nil_append, beforeDot_cons, if_pos rfl]
  | cons c rest ih =>
      rw [List.mem_cons, not_or] at h
      rw [List.cons_append, beforeDot_cons, if_neg (Ne.symm h.1), ih h.2]

/-- The pieces of a text start with what stands before its first dot. -/
theorem splitDots_eq_cons (text : List Char) :
    ∃ pieces, splitDots text = beforeDot text :: pieces := by
  by_cases h : '.' ∈ text
  · obtain ⟨before, after, rfl, hbefore⟩ := List.eq_append_cons_of_mem h
    exact ⟨splitDots after, by rw [splitDots_append hbefore, beforeDot_append hbefore]⟩
  · exact ⟨[], by rw [splitDots_of_not_mem h, beforeDot_of_not_mem h]⟩

/-- Up to its first dot a text is passed over character by character. -/
theorem afterDot_cons (c : Char) (rest : List Char) :
    afterDot (c :: rest) = if c = '.' then rest else afterDot rest := by
  unfold afterDot
  by_cases h : c = '.'
  · rw [if_pos h, List.dropWhile_cons_of_neg (by simp [h])]
    rfl
  · rw [if_neg h, List.dropWhile_cons_of_pos (by simp [h])]

/-- What stands behind the first dot. -/
theorem afterDot_append {before : List Char} (h : '.' ∉ before) (after : List Char) :
    afterDot (before ++ '.' :: after) = after := by
  induction before with
  | nil => rw [List.nil_append, afterDot_cons, if_pos rfl]
  | cons c rest ih =>
      rw [List.mem_cons, not_or] at h
      rw [List.cons_append, afterDot_cons, if_neg (Ne.symm h.1), ih h.2]

/-- Nothing stands behind the first dot of a text without dots. -/
theorem afterDot_of_not_mem {text : List Char} (h : '.' ∉ text) : afterDot text = [] := by
  induction text with
  | nil => rfl
  | cons c rest ih =>
      rw [List.mem_cons, not_or] at h
      rw [afterDot_cons, if_neg (Ne.symm h.1), ih h.2]

/-! ## Names -/

/-- The first component of a name is its root. -/
theorem components_eq_cons (name : String) : ∃ rest, components name = root name :: rest := by
  obtain ⟨pieces, hpieces⟩ := splitDots_eq_cons name.toList
  exact ⟨pieces.map String.ofList, by rw [components, hpieces]; rfl⟩

/-- A name without dots is its own root. -/
theorem root_of_not_mem {name : String} (h : '.' ∉ name.toList) : root name = name := by
  rw [root, beforeDot_of_not_mem h, String.ofList_toList]

/-- A root is its own root. -/
theorem root_root (name : String) : root (root name) = root name := by
  by_cases hdot : '.' ∈ name.toList
  · obtain ⟨before, after, hname, hbefore⟩ := List.eq_append_cons_of_mem hdot
    have hroot : root name = String.ofList before := by
      rw [root, hname, beforeDot_append hbefore]
    rw [hroot, root_of_not_mem (by rwa [String.toList_ofList])]
  · rw [root_of_not_mem hdot, root_of_not_mem hdot]

/-- **A name that is not its own root** has a dot behind its root, and the components of what follows
behind that. -/
theorem exists_toList_eq_of_ne_root {name : String} (h : name ≠ root name) :
    ∃ after, name.toList = (root name).toList ++ '.' :: after
      ∧ components name = root name :: (splitDots after).map String.ofList := by
  have hdot : '.' ∈ name.toList :=
    Classical.byContradiction fun hnone => h (root_of_not_mem hnone).symm
  obtain ⟨before, after, hname, hbefore⟩ := List.eq_append_cons_of_mem hdot
  have hroot : root name = String.ofList before := by
    rw [root, hname, beforeDot_append hbefore]
  refine ⟨after, ?_, ?_⟩
  · rw [hroot, String.toList_ofList, hname]
  · rw [components, hname, splitDots_append hbefore, hroot, List.map_cons]

/-- A name that is its own root has no other component. -/
theorem components_of_eq_root {name : String} (h : name = root name) : components name = [name] := by
  have hdot : '.' ∉ name.toList := by
    intro hmem
    obtain ⟨before, after, hname, hbefore⟩ := List.eq_append_cons_of_mem hmem
    have hlist : name.toList = before := by
      rw [h, root, String.toList_ofList, hname, beforeDot_append hbefore]
    have hlength := congrArg List.length (hlist.symm.trans hname)
    simp at hlength
  rw [components, splitDots_of_not_mem hdot, List.map_singleton, String.ofList_toList]

/-- **The root of a name and the members below it** come first among its components. Only a dot at
the end adds a component to them. -/
theorem root_cons_memberPath_prefix (name : String) :
    root name :: memberPath name <+: components name := by
  by_cases hdot : '.' ∈ name.toList
  · obtain ⟨before, after, hname, hbefore⟩ := List.eq_append_cons_of_mem hdot
    rw [components, root, memberPath, hname, splitDots_append hbefore, beforeDot_append hbefore,
      afterDot_append hbefore, List.map_cons, List.cons_prefix_cons]
    refine ⟨rfl, ?_⟩
    split
    · exact List.nil_prefix
    · exact List.prefix_rfl
  · rw [components, root, memberPath, splitDots_of_not_mem hdot, beforeDot_of_not_mem hdot,
      afterDot_of_not_mem hdot]
    exact List.prefix_rfl

/-- **The components of a member** are those of its table and those of its key. -/
theorem components_member (owner key : String) :
    components (member owner key) = components owner ++ components key := by
  have htext : (member owner key).toList = owner.toList ++ '.' :: key.toList := by
    simp [member]
  rw [components, components, components, htext, splitDots_append_dot, List.map_append]

/-- The members of a table have its root. -/
theorem root_member (owner key : String) : root (member owner key) = root owner := by
  have htext : (member owner key).toList = owner.toList ++ '.' :: key.toList := by
    simp [member]
  rw [root, root, htext]
  by_cases h : '.' ∈ owner.toList
  · obtain ⟨before, after, howner, hbefore⟩ := List.eq_append_cons_of_mem h
    rw [howner, List.append_assoc, List.cons_append, beforeDot_append hbefore,
      beforeDot_append hbefore]
  · rw [beforeDot_append h, beforeDot_of_not_mem h]

end LuaGlobals.Text
