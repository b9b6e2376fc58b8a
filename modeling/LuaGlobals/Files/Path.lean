/-! # Paths of files

* `FilePath` is a path: the slashes that make it absolute, and its components. Empty components
  and single dots are left out, double dots are kept.
* `FilePath.ofString` and `FilePath.toString` read and write a path.
* `FilePath.join` continues a path with another one.
* `FilePath.normalize` makes a path absolute and free of double dots.
-/

namespace LuaGlobals

/-- A path. -/
structure FilePath where
  /-- The number of slashes in front: none makes the path relative, and exactly two are not the
  same as one. -/
  slashes : Nat
  /-- The components. -/
  parts : List String
deriving DecidableEq, Repr

namespace FilePath

/-- The pieces of a text between its slashes. -/
def splitSlashes : List Char → List (List Char)
  | [] => [[]]
  | c :: rest =>
    if c = '/' then [] :: splitSlashes rest
    else
      match splitSlashes rest with
      | piece :: pieces => (c :: piece) :: pieces
      | [] => [[c]]

/-- The slashes kept of those in front of a text: one, or two if they are exactly two. -/
def rootSlashes (text : List Char) : Nat :=
  let count := (text.takeWhile (· == '/')).length
  if count ≤ 2 then count else 1

/-- The path that a text spells. -/
def ofString (text : String) : FilePath :=
  let pieces := (splitSlashes text.toList).map String.ofList
  { slashes := rootSlashes text.toList
    parts := pieces.filter fun piece => piece != "" && piece != "." }

/-- The spelling of a path; the path without components is a dot. -/
protected def toString (path : FilePath) : String :=
  if path.slashes = 0 ∧ path.parts = [] then "."
  else String.ofList (List.replicate path.slashes '/') ++ "/".intercalate path.parts

/-- The path of the working directory. -/
def here : FilePath :=
  ⟨0, []⟩

/-- Whether a path starts at the root of the file system. -/
def isAbsolute (path : FilePath) : Bool :=
  path.slashes != 0

/-- The path that continues another one. An absolute path stays as it is. -/
def join (base path : FilePath) : FilePath :=
  if path.isAbsolute then path else { base with parts := base.parts ++ path.parts }

/-- The path without its last component. -/
def parent (path : FilePath) : FilePath :=
  { path with parts := path.parts.dropLast }

/-- One step along a path without double dots: a double dot drops the component before it. -/
def normalStep (parts : List String) (part : String) : List String :=
  if part = ".." then parts.dropLast else parts ++ [part]

/-- The absolute path without double dots that a path spells in a working directory. -/
def normalize (workingDirectory : List String) (path : FilePath) : FilePath :=
  let start := if path.isAbsolute then [] else workingDirectory
  { slashes := 1, parts := path.parts.foldl normalStep start }

/-- A path and all paths that it lies below, the nearest first. -/
def selfAndParents (path : FilePath) : List FilePath :=
  (List.range (path.parts.length + 1)).reverse.map fun count =>
    { path with parts := path.parts.take count }

end FilePath

end LuaGlobals
