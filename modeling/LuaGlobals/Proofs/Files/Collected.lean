import LuaGlobals.Files.Tree
import LuaGlobals.Proofs.Files.Spelling
import Mathlib.Data.List.Basic

/-! # The files that are collected

A command looks at the paths that it is given, with the files of a directory in its place. When the
paths lead somewhere, each file that is collected can be read.

* `bind_eq_ok_iff` and `map_eq_ok_iff` take apart steps that may fail and have succeeded.
* `FileTree.Named`: the places of a tree are made of names.
* `foldlM_follow`: the way from a directory down to one of its files.
* **`read_of_mem_collectSources`**: what is collected from paths that lead somewhere can be read.
* `proper_of_mem_collectSources`: what is collected from proper paths is proper. -/

namespace LuaGlobals

/-! ## Steps that may fail -/

section Steps

variable {ε α β : Type} {first : Except ε α} {result : β}

/-- Two steps succeed when the first does and the second does with its result. -/
theorem bind_eq_ok_iff {next : α → Except ε β} :
    (first >>= next) = .ok result ↔ ∃ value, first = .ok value ∧ next value = .ok result := by
  cases first with
  | error error => simp [bind, Except.bind]
  | ok value => simp [bind, Except.bind]

/-- What a step gives is used when the step succeeds. -/
theorem map_eq_ok_iff {use : α → β} :
    first.map use = .ok result ↔ ∃ value, first = .ok value ∧ use value = result := by
  cases first with
  | error error => simp [Except.map]
  | ok value => simp [Except.map]

end Steps

/-! ## Trees of names -/

/-- Components are told by looking at the text. -/
theorem isComponent_iff {part : String} :
    IsComponent part ↔ part ≠ "" ∧ part ≠ "." ∧ '/' ∉ part.toList :=
  ⟨fun h => ⟨h.ne_empty, h.ne_dot, h.slash_not_mem⟩, fun h => ⟨h.1, h.2.1, h.2.2⟩⟩

instance (part : String) : Decidable (IsComponent part) :=
  decidable_of_iff' _ isComponent_iff

namespace FileTree

/-- A tree whose places are made of names; a double dot is none, since it leads up again. -/
def Named (tree : FileTree) : Prop :=
  ∀ entry ∈ tree.entries, ∀ part ∈ entry.1, IsComponent part ∧ part ≠ ".."

instance (tree : FileTree) : Decidable tree.Named :=
  inferInstanceAs
    (Decidable (∀ entry ∈ tree.entries, ∀ part ∈ entry.1, IsComponent part ∧ part ≠ ".."))

variable {tree : FileTree} {base place : Place} {parts : List String} {text : String}
  {pattern : Pattern} {directory path : FilePath} {paths : List FilePath}

/-! ## The way to a file -/

/-- The file of an entry is found at its place. -/
theorem isSome_fileAt?_of_mem (h : (place, FileEntry.file text) ∈ tree.entries) :
    (tree.fileAt? place).isSome = true := by
  rw [fileAt?, List.findSome?_isSome_iff]
  refine ⟨_, h, ?_⟩
  dsimp only
  rw [if_pos rfl, Option.isSome_some]

/-- Above an entry there is a directory. -/
theorem directoryAt_of_isBelow {entry : FileEntry} (h : (place, entry) ∈ tree.entries)
    (hbelow : isBelow place base = true) : tree.directoryAt base = true := by
  rw [directoryAt, Bool.or_eq_true, List.any_eq_true]
  refine Or.inr ⟨_, h, ?_⟩
  dsimp only
  rw [hbelow, Bool.true_or]

/-- A place lies above those that continue it. -/
theorem isBelow_append (base : Place) (part : String) (rest : List String) :
    isBelow (base ++ part :: rest) base = true := by
  rw [isBelow, Bool.and_eq_true, List.isPrefixOf_iff_prefix, bne_iff_ne]
  refine ⟨List.prefix_append _ _, fun h => ?_⟩
  exact List.cons_ne_nil part rest (List.append_right_eq_self.mp h)

/-- One step on the way to a file goes one component down. -/
theorem follow_of_mem {part : String} {rest : List String} (hpart : part ≠ "..")
    (h : (base ++ part :: rest, FileEntry.file text) ∈ tree.entries) :
    tree.follow base part = .ok (base ++ [part]) := by
  have hnext : FilePath.normalStep base part = base ++ [part] := if_neg hpart
  have hreached : tree.directoryAt (base ++ [part]) || (tree.fileAt? (base ++ [part])).isSome := by
    rw [Bool.or_eq_true]
    cases rest with
    | nil => exact Or.inr (isSome_fileAt?_of_mem h)
    | cons next rest =>
        refine Or.inl (directoryAt_of_isBelow h ?_)
        rw [List.append_cons]
        exact isBelow_append _ _ _
  unfold follow
  rw [if_pos (directoryAt_of_isBelow h (isBelow_append base part rest)), hnext]
  exact if_pos hreached

/-- **The way from a directory down to one of its files.** -/
theorem foldlM_follow (hparts : ∀ part ∈ parts, part ≠ "..")
    (h : (base ++ parts, FileEntry.file text) ∈ tree.entries) :
    parts.foldlM tree.follow base = .ok (base ++ parts) := by
  induction parts generalizing base with
  | nil => rw [List.append_nil]; rfl
  | cons part rest ih =>
      rw [List.foldlM_cons, follow_of_mem (hparts part List.mem_cons_self) h]
      show rest.foldlM tree.follow (base ++ [part]) = _
      rw [List.append_cons base part rest] at h ⊢
      exact ih (fun other hother => hparts other (List.mem_cons_of_mem _ hother)) h

/-- A path that goes on below a directory is followed from there. -/
theorem locate_join (h : tree.locate directory = .ok base) :
    tree.locate (directory.join ⟨0, parts⟩) = parts.foldlM tree.follow base := by
  have hjoin : directory.join ⟨0, parts⟩ = ⟨directory.slashes, directory.parts ++ parts⟩ := rfl
  rw [locate] at h ⊢
  rw [hjoin, List.foldlM_append]
  show (directory.parts.foldlM tree.follow _ >>= _) = _
  exact (congrArg (· >>= fun place => parts.foldlM tree.follow place) h)

/-! ## Files of directories -/

/-- The components below a place lead to the place they were taken from. -/
theorem append_of_partsBelow? (h : partsBelow? pattern base place = some parts) :
    base ++ parts = place := by
  unfold partsBelow? at h
  split at h
  · rename_i below hbelow
    split at h
    · split at h
      · obtain rfl := Option.some.inj h
        exact List.isPrefixOf?_eq_some_iff_append_eq.mp hbelow
      · cases h
    · cases h
  · cases h

/-- The files listed for a directory are below its place. -/
theorem exists_of_mem_filesBelow (h : path ∈ tree.filesBelow pattern directory) :
    ∃ base parts text, tree.locate directory = .ok base
      ∧ (base ++ parts, FileEntry.file text) ∈ tree.entries ∧ path = directory.join ⟨0, parts⟩ := by
  unfold filesBelow at h
  split at h
  · exact absurd h List.not_mem_nil
  · rename_i base hbase
    obtain ⟨parts, hparts, rfl⟩ := List.mem_map.mp h
    rw [List.mem_mergeSort] at hparts
    obtain ⟨⟨place, entry⟩, hentry, hbelow⟩ := List.mem_filterMap.mp hparts
    cases entry with
    | directory => cases hbelow
    | file text =>
        refine ⟨base, parts, text, hbase, ?_, rfl⟩
        rwa [append_of_partsBelow? hbelow]

/-- A path that leads to a file can be read. -/
theorem exists_read (hplace : tree.locate path = .ok place)
    (hfile : (tree.fileAt? place).isSome = true) : ∃ text, tree.read path = .ok text := by
  obtain ⟨text, htext⟩ := Option.isSome_iff_exists.mp hfile
  refine ⟨text, ?_⟩
  unfold read
  simp only [hplace, htext, bind_eq_ok_iff, Except.ok.injEq, exists_eq_left']
  rfl

/-- The files of a directory can be read. -/
theorem exists_read_of_mem_filesBelow (htree : tree.Named)
    (h : path ∈ tree.filesBelow pattern directory) : ∃ text, tree.read path = .ok text := by
  obtain ⟨base, parts, text, hbase, hentry, rfl⟩ := exists_of_mem_filesBelow h
  have hparts : ∀ part ∈ parts, part ≠ ".." := fun part hpart =>
    (htree _ hentry part (List.mem_append_right _ hpart)).2
  exact exists_read ((locate_join hbase).trans (foldlM_follow hparts hentry))
    (isSome_fileAt?_of_mem hentry)

/-! ## Given paths -/

/-- A step leads to a directory or a file. -/
theorem reached_of_follow {part : String} (h : tree.follow base part = .ok place) :
    (tree.directoryAt place || (tree.fileAt? place).isSome) = true := by
  unfold follow at h
  split at h
  · dsimp only at h
    split at h
    · rename_i hreached
      obtain rfl := Except.ok.inj h
      exact hreached
    · cases h
  · cases h

/-- Steps from a directory lead to a directory or a file. -/
theorem reached_of_foldlM (hbase : tree.directoryAt base = true)
    (h : parts.foldlM tree.follow base = .ok place) :
    (tree.directoryAt place || (tree.fileAt? place).isSome) = true := by
  rcases List.eq_nil_or_concat parts with rfl | ⟨front, last, rfl⟩
  · obtain rfl := Except.ok.inj h
    rw [hbase, Bool.true_or]
  · rw [List.concat_eq_append, List.foldlM_append] at h
    obtain ⟨middle, -, hlast⟩ := bind_eq_ok_iff.mp h
    rw [List.foldlM_cons] at hlast
    obtain ⟨next, hstep, hnext⟩ := bind_eq_ok_iff.mp hlast
    obtain rfl := Except.ok.inj hnext
    exact reached_of_follow hstep

/-- The root and the working directory are directories. -/
theorem directoryAt_start (tree : FileTree) (path : FilePath) :
    tree.directoryAt (if path.isAbsolute then [] else tree.workingDirectory) = true := by
  rw [directoryAt, Bool.or_eq_true]
  left
  split
  · exact List.isPrefixOf_iff_prefix.mpr List.nil_prefix
  · exact List.isPrefixOf_iff_prefix.mpr List.prefix_rfl

/-- What is there and no directory can be read. -/
theorem exists_read_of_exists? (hexists : tree.exists? path = true)
    (hdirectory : tree.isDirectory path = false) : ∃ text, tree.read path = .ok text := by
  unfold exists? at hexists
  unfold isDirectory at hdirectory
  cases hplace : tree.locate path with
  | error error => rw [hplace] at hexists; cases hexists
  | ok place =>
      rw [hplace] at hdirectory
      have hreached := reached_of_foldlM (tree.directoryAt_start path) hplace
      have hnone : tree.directoryAt place = false := hdirectory
      rw [hnone, Bool.false_or] at hreached
      exact exists_read hplace hreached

/-- **What is collected from paths that lead somewhere can be read.** -/
theorem read_of_mem_collectSources (htree : tree.Named)
    (hpaths : ∀ path ∈ paths, tree.exists? path = true)
    (h : path ∈ tree.collectSources pattern paths) : ∃ text, tree.read path = .ok text := by
  obtain ⟨given, hgiven, hpath⟩ := List.mem_flatMap.mp h
  split at hpath
  case isTrue => exact exists_read_of_mem_filesBelow htree hpath
  case isFalse hdirectory =>
      obtain rfl := List.mem_singleton.mp hpath
      exact exists_read_of_exists? (hpaths path hgiven) (Bool.not_eq_true _ ▸ hdirectory)

/-- **What is collected from proper paths is proper.** -/
theorem proper_of_mem_collectSources (htree : tree.Named) (hpaths : ∀ path ∈ paths, path.Proper)
    (h : path ∈ tree.collectSources pattern paths) : path.Proper := by
  obtain ⟨given, hgiven, hpath⟩ := List.mem_flatMap.mp h
  have hproper := hpaths given hgiven
  split at hpath
  case isTrue =>
      obtain ⟨base, parts, text, -, hentry, rfl⟩ := exists_of_mem_filesBelow hpath
      refine ⟨hproper.slashes_le, fun part hpart => ?_⟩
      rcases List.mem_append.mp hpart with hfront | hback
      · exact hproper.isComponent part hfront
      · exact (htree _ hentry part (List.mem_append_right _ hback)).1
  case isFalse =>
      obtain rfl := List.mem_singleton.mp hpath
      exact hproper

end FileTree

end LuaGlobals
