import LuaGlobals.Files.Path
import LuaGlobals.Proofs.Text.Cut

/-! # Paths and their spellings

A path that some text spells has components that are names. Such a path is read back from its own
spelling, so that different paths have different spellings.

* `IsComponent` is what the components of a path are, and `FilePath.Proper` a path made of them.
* `FilePath.splitSlashes_intercalate`: pieces with slashes between them.
* **`FilePath.ofString_toString`**: a proper path is the one that its spelling spells.
* `FilePath.proper_ofString`: all that texts spell is proper. -/

namespace LuaGlobals

/-- A text that can stand between the slashes of a path. -/
structure IsComponent (part : String) : Prop where
  /-- It is not empty. -/
  ne_empty : part ≠ ""
  /-- It is not the dot that stays where it is. -/
  ne_dot : part ≠ "."
  /-- It holds no slash. -/
  slash_not_mem : '/' ∉ part.toList

namespace FilePath

/-- A path as texts spell it. -/
structure Proper (path : FilePath) : Prop where
  /-- There are at most two slashes in front. -/
  slashes_le : path.slashes ≤ 2
  /-- The components are such. -/
  isComponent : ∀ part ∈ path.parts, IsComponent part

/-! ## Pieces between slashes -/

/-- A text without slashes is one piece. -/
theorem splitSlashes_of_not_mem {text : List Char} (h : '/' ∉ text) :
    splitSlashes text = [text] := by
  induction text with
  | nil => rfl
  | cons c rest ih =>
      rw [List.mem_cons, not_or] at h
      rw [splitSlashes, if_neg (Ne.symm h.1), ih h.2]

/-- The first slash ends the first piece. -/
theorem splitSlashes_append {before : List Char} (h : '/' ∉ before) (after : List Char) :
    splitSlashes (before ++ '/' :: after) = before :: splitSlashes after := by
  induction before with
  | nil => rw [List.nil_append, splitSlashes, if_pos rfl]
  | cons c rest ih =>
      rw [List.mem_cons, not_or] at h
      rw [List.cons_append, splitSlashes, if_neg (Ne.symm h.1), ih h.2]

/-- No piece holds a slash. -/
theorem slash_not_mem_of_mem_splitSlashes (text : List Char) :
    ∀ piece ∈ splitSlashes text, '/' ∉ piece := by
  induction text with
  | nil => simp [splitSlashes]
  | cons c rest ih =>
      rw [splitSlashes]
      split
      case isTrue => exact List.forall_mem_cons.mpr ⟨List.not_mem_nil, ih⟩
      case isFalse hc =>
          split
          · rename_i piece pieces hpieces
            rw [hpieces] at ih
            obtain ⟨hpiece, hlater⟩ := List.forall_mem_cons.mp ih
            have hlonger := List.not_mem_cons_of_ne_of_not_mem (Ne.symm hc) hpiece
            exact List.forall_mem_cons.mpr ⟨hlonger, hlater⟩
          · simpa using Ne.symm hc

/-- Slashes in front are empty pieces in front. -/
theorem splitSlashes_replicate (count : Nat) (rest : List Char) :
    splitSlashes (List.replicate count '/' ++ rest)
      = List.replicate count [] ++ splitSlashes rest := by
  induction count with
  | zero => rfl
  | succ count ih =>
      rw [List.replicate_succ, List.cons_append, splitSlashes, if_pos rfl, ih]
      rfl

/-- **Pieces with slashes between them** are the pieces of the text. -/
theorem splitSlashes_intercalate {pieces : List (List Char)} (hne : pieces ≠ [])
    (h : ∀ piece ∈ pieces, '/' ∉ piece) : splitSlashes (['/'].intercalate pieces) = pieces := by
  induction pieces with
  | nil => exact absurd rfl hne
  | cons piece rest ih =>
      have hpiece := h piece List.mem_cons_self
      cases rest with
      | nil => rw [List.intercalate_singleton, splitSlashes_of_not_mem hpiece]
      | cons next rest =>
          rw [List.intercalate_cons_cons, List.append_assoc, List.singleton_append,
            splitSlashes_append hpiece,
            ih (List.cons_ne_nil _ _) fun other hother => h other (List.mem_cons_of_mem _ hother)]

/-! ## Spelling a path and reading it -/

/-- The pieces of a text that become components of a path. -/
def keptPieces (text : List Char) : List String :=
  ((splitSlashes text).map String.ofList).filter fun piece => piece != "" && piece != "."

/-- The pieces that are kept are components. -/
theorem isComponent_of_mem_keptPieces {text : List Char} {part : String}
    (h : part ∈ keptPieces text) : IsComponent part := by
  obtain ⟨hmem, hkept⟩ := List.mem_filter.mp h
  rw [Bool.and_eq_true, bne_iff_ne, bne_iff_ne] at hkept
  obtain ⟨piece, hpiece, rfl⟩ := List.mem_map.mp hmem
  refine ⟨hkept.1, hkept.2, ?_⟩
  rw [String.toList_ofList]
  exact slash_not_mem_of_mem_splitSlashes text piece hpiece

/-- **All that texts spell is proper.** -/
theorem proper_ofString (text : String) : (ofString text).Proper where
  slashes_le := by
    show rootSlashes text.toList ≤ 2
    unfold rootSlashes
    dsimp only
    split
    · assumption
    · exact Nat.le_succ 1
  isComponent := fun _ => isComponent_of_mem_keptPieces

/-- Components with slashes between them are all kept. -/
theorem keptPieces_intercalate {parts : List String} (h : ∀ part ∈ parts, IsComponent part) :
    keptPieces (['/'].intercalate (parts.map String.toList)) = parts := by
  cases parts with
  | nil => rfl
  | cons part rest =>
      have hne : (part :: rest).map String.toList ≠ [] := List.cons_ne_nil _ _
      unfold keptPieces
      rw [splitSlashes_intercalate hne]
      · rw [List.map_map, List.filter_eq_self.mpr]
        · exact List.map_id'' (fun _ => String.ofList_toList) _
        · intro piece hpiece
          obtain ⟨other, hother, rfl⟩ := List.mem_map.mp hpiece
          have hcomponent := h other hother
          rw [Function.comp_apply, String.ofList_toList, Bool.and_eq_true, bne_iff_ne, bne_iff_ne]
          exact ⟨hcomponent.ne_empty, hcomponent.ne_dot⟩
      · intro piece hpiece
        obtain ⟨other, hother, rfl⟩ := List.mem_map.mp hpiece
        exact (h other hother).slash_not_mem

/-- Slashes in front add nothing to what is kept. -/
theorem keptPieces_replicate (count : Nat) (rest : List Char) :
    keptPieces (List.replicate count '/' ++ rest) = keptPieces rest := by
  unfold keptPieces
  rw [splitSlashes_replicate, List.map_append, List.filter_append, List.map_replicate,
    List.filter_replicate_of_neg (by decide), List.nil_append]

/-- Up to two slashes in front of components are counted. -/
theorem rootSlashes_replicate {count : Nat} {rest : List Char} (hcount : count ≤ 2)
    (hrest : ∀ c ∈ rest.head?, c ≠ '/') :
    rootSlashes (List.replicate count '/' ++ rest) = count := by
  have hrun : (List.replicate count '/' ++ rest).takeWhile (· == '/')
      = List.replicate count '/' := by
    refine Text.takeWhile_append ?_ ?_
    · intro c hc
      rw [List.eq_of_mem_replicate hc]
      rfl
    · intro c hc
      exact beq_eq_false_iff_ne.mpr (hrest c hc)
  rw [rootSlashes, hrun, List.length_replicate, if_pos hcount]

/-- Components with slashes between them do not start with a slash. -/
theorem head?_intercalate_ne_slash {parts : List String} (h : ∀ part ∈ parts, IsComponent part) :
    ∀ c ∈ (['/'].intercalate (parts.map String.toList)).head?, c ≠ '/' := by
  cases parts with
  | nil => rintro _ ⟨⟩
  | cons part rest =>
      have hcomponent := h part List.mem_cons_self
      have hne : part.toList ≠ [] := fun hnil =>
        hcomponent.ne_empty (String.toList_eq_nil_iff.mp hnil)
      have hall : ∀ c ∈ part.toList, c ≠ '/' := fun c hc hslash =>
        hcomponent.slash_not_mem (hslash ▸ hc)
      rw [List.map_cons]
      cases rest with
      | nil =>
          rw [List.map_nil, List.intercalate_singleton, ← List.append_nil part.toList]
          exact Text.forall_head?_append hne hall []
      | cons next rest =>
          rw [List.map_cons, List.intercalate_cons_cons, List.append_assoc]
          exact Text.forall_head?_append hne hall _

/-- **A proper path is the one that its spelling spells.** -/
theorem ofString_toString {path : FilePath} (h : path.Proper) : ofString path.toString = path := by
  obtain ⟨slashes, parts⟩ := path
  by_cases hempty : slashes = 0 ∧ parts = []
  · obtain ⟨rfl, rfl⟩ := hempty
    decide
  · have htext : (FilePath.toString ⟨slashes, parts⟩).toList
        = List.replicate slashes '/' ++ ['/'].intercalate (parts.map String.toList) := by
      rw [FilePath.toString, if_neg hempty, String.toList_append, String.toList_ofList,
        String.toList_intercalate]
      rfl
    have hslashes : rootSlashes (FilePath.toString ⟨slashes, parts⟩).toList = slashes := by
      rw [htext]
      exact rootSlashes_replicate h.slashes_le (head?_intercalate_ne_slash h.isComponent)
    have hparts : keptPieces (FilePath.toString ⟨slashes, parts⟩).toList = parts := by
      rw [htext, keptPieces_replicate]
      exact keptPieces_intercalate h.isComponent
    exact FilePath.mk.injEq .. ▸ ⟨hslashes, hparts⟩

/-- Different proper paths have different spellings. -/
theorem toString_injOn {path other : FilePath} (hpath : path.Proper) (hother : other.Proper)
    (h : path.toString = other.toString) : path = other := by
  rw [← ofString_toString hpath, h, ofString_toString hother]

end FilePath

end LuaGlobals
