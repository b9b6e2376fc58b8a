import LuaGlobals.Files.Path
import LuaGlobals.Files.Pattern

/-! # Trees of files

* `FileTree` holds the directories and the texts of files below a working directory.
* `FileTree.locate` follows a path to the place that it leads to.
* `FileTree.isFile`, `FileTree.isDirectory` and `FileTree.exists` ask for what is there.
* `FileTree.read` gives the text of a file.
* `FileTree.filesBelow` lists the files of a directory and of the directories in it.
-/

namespace LuaGlobals

/-- What stands at a place of a tree. -/
inductive FileEntry where
  /-- A file with its text. -/
  | file (text : String)
  /-- A directory. -/
  | directory
deriving DecidableEq, Repr

/-- A place in a tree: the components below the root of the file system. -/
abbrev Place := List String

/-- The files and directories that a program sees. -/
structure FileTree where
  /-- The place of the working directory, which is always there. -/
  workingDirectory : Place
  /-- The files, and the directories that may be empty. -/
  entries : List (Place × FileEntry)
deriving Repr

/-- Why a file cannot be read. -/
inductive FileError where
  /-- Nothing is there. -/
  | notFound
  /-- A directory is there. -/
  | isDirectory
  /-- The path leads through a file. -/
  | notDirectory
deriving DecidableEq, Repr

namespace FileTree

/-- Whether one place lies below another. -/
def isBelow (place base : Place) : Bool :=
  base.isPrefixOf place && place != base

/-- The text of the file at a place. -/
def fileAt? (tree : FileTree) (place : Place) : Option String :=
  tree.entries.findSome? fun
    | (other, .file text) => if other = place then some text else none
    | (_, .directory) => none

/-- Whether a directory is at a place. A place above another one is a directory. -/
def directoryAt (tree : FileTree) (place : Place) : Bool :=
  place.isPrefixOf tree.workingDirectory
    || tree.entries.any fun (other, entry) =>
      isBelow other place || (other == place && entry == .directory)

/-- One step of following a path. -/
def follow (tree : FileTree) (place : Place) (part : String) : Except FileError Place :=
  -- Every step, also a double dot, needs a directory to start from.
  if tree.directoryAt place then
    let next := FilePath.normalStep place part
    if tree.directoryAt next || (tree.fileAt? next).isSome then .ok next else .error .notFound
  else .error .notDirectory

/-- The place that a path leads to. -/
def locate (tree : FileTree) (path : FilePath) : Except FileError Place :=
  path.parts.foldlM tree.follow (if path.isAbsolute then [] else tree.workingDirectory)

/-- Whether a path leads to a file. -/
def isFile (tree : FileTree) (path : FilePath) : Bool :=
  match tree.locate path with
  | .ok place => (tree.fileAt? place).isSome
  | .error _ => false

/-- Whether a path leads to a directory. -/
def isDirectory (tree : FileTree) (path : FilePath) : Bool :=
  match tree.locate path with
  | .ok place => tree.directoryAt place
  | .error _ => false

/-- Whether a path leads anywhere. -/
def exists? (tree : FileTree) (path : FilePath) : Bool :=
  (tree.locate path).isOk

/-- The text of the file that a path leads to. -/
def read (tree : FileTree) (path : FilePath) : Except FileError String := do
  let place ← tree.locate path
  match tree.fileAt? place with
  | some text => return text
  | none => throw .isDirectory

/-- The absolute path without double dots that a path spells in the working directory. -/
def normalize (tree : FileTree) (path : FilePath) : FilePath :=
  path.normalize tree.workingDirectory

/-- The working directory as an absolute path. -/
def workingPath (tree : FileTree) : FilePath :=
  ⟨1, tree.workingDirectory⟩

/-! ## Listings of directories -/

/-- Whether the components of a path come before those of another one, or are the same. -/
def partsLe (parts others : List String) : Bool :=
  decide ¬ others < parts

/-- The components of a file below a place, if its name fits a pattern. -/
def partsBelow? (pattern : Pattern) (base place : Place) : Option (List String) :=
  match base.isPrefixOf? place with
  | some parts =>
    match parts.getLast? with
    | some name => if pattern.accepts name then some parts else none
    | none => none
  | none => none

/-- The files of a directory, and of the directories in it, whose names fit a pattern, in the
order of their components. -/
def filesBelow (tree : FileTree) (pattern : Pattern) (directory : FilePath) : List FilePath :=
  match tree.locate directory with
  | .error _ => []
  | .ok base =>
    let found := tree.entries.filterMap fun
      | (place, .file _) => partsBelow? pattern base place
      | (_, .directory) => none
    (found.mergeSort partsLe).map fun parts => directory.join ⟨0, parts⟩

/-- The given files, each directory among them replaced by its files whose names fit a pattern. -/
def collectSources (tree : FileTree) (pattern : Pattern) (paths : List FilePath) :
    List FilePath :=
  paths.flatMap fun path =>
    if tree.isDirectory path then tree.filesBelow pattern path else [path]

end FileTree

end LuaGlobals
