/-! # Dotted names

A qualified name such as `string.format` joins components with dots.

* `components name` lists the components; a name without dots has one, the name itself.
* `root name` is the first component.
* `memberPath name` lists the components after the root, none when nothing follows the first dot.
-/

namespace LuaGlobals.Text

/-- The pieces of a text between its dots. -/
def splitDots : List Char → List (List Char)
  | [] => [[]]
  | c :: rest =>
    if c = '.' then [] :: splitDots rest
    else
      match splitDots rest with
      | piece :: pieces => (c :: piece) :: pieces
      | [] => [[c]]

/-- Every text has a first piece. -/
theorem splitDots_ne_nil (text : List Char) : splitDots text ≠ [] := by
  cases text with
  | nil => simp [splitDots]
  | cons c rest =>
    unfold splitDots
    split
    · simp
    · split <;> simp

/-- The text up to its first dot. -/
def beforeDot (text : List Char) : List Char :=
  text.takeWhile (· != '.')

/-- The text after its first dot, empty without one. -/
def afterDot (text : List Char) : List Char :=
  (text.dropWhile (· != '.')).drop 1

/-- The components of a qualified name. -/
def components (name : String) : List String :=
  (splitDots name.toList).map String.ofList

/-- The first component of a qualified name. -/
def root (name : String) : String :=
  String.ofList (beforeDot name.toList)

/-- The components that follow the root of a qualified name; a dot with nothing after it adds
no component. -/
def memberPath (name : String) : List String :=
  let rest := afterDot name.toList
  if rest = [] then [] else (splitDots rest).map String.ofList

/-- The member `key` of the table called `owner`. -/
def member (owner key : String) : String :=
  owner ++ "." ++ key

end LuaGlobals.Text
