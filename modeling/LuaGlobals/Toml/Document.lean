import LuaGlobals.Keyed
import LuaGlobals.Toml.Number
import LuaGlobals.Toml.Text

/-! # TOML documents

A document is a row of statements: assignments of values to dotted keys, headers `[table]` that
open a table, and headers `[[table]]` that append a table to an array of tables.

* `readValue?` reads a value.
* `Document` is the root table while a document is read, with the tables that are closed.
* `Toml.read?` reads a document; there is none when the text breaks a rule of the language.
-/

namespace LuaGlobals.Toml

/-! ## Keys -/

/-- A dotted key. -/
abbrev Key := List String

/-- Whether a character may stand in a key without quotes. -/
def isBareKeyChar (c : Char) : Bool :=
  c.isAlphanum || c == '-' || c == '_'

/-- Reads one part of a key. -/
def readKeyPart? (text : List Char) : Option (String × List Char) :=
  let bare := text.takeWhile isBareKeyChar
  if bare = [] then readLineString? text
  else some (String.ofList bare, text.dropWhile isBareKeyChar)

/-- Reads a key and the blanks after it; the first argument bounds the number of parts. -/
def readKeyWith? : Nat → List Char → Option (Key × List Char)
  | 0, _ => none
  | fuel + 1, text => do
    let (part, rest) ← readKeyPart? text
    match dropGap rest with
    | '.' :: rest =>
      let (parts, rest) ← readKeyWith? fuel (dropGap rest)
      return (part :: parts, rest)
    | rest => return ([part], rest)

/-- Reads a key and the blanks after it. -/
def readKey? (text : List Char) : Option (Key × List Char) :=
  readKeyWith? (text.length + 1) text

/-! ## Tables -/

/-- The table with the table under a key changed. Missing tables on the way are created; with
`throughArrays` an array on the way stands for its last table. There is none when another value
is on the way or the change fails. -/
def changeNest (throughArrays : Bool) (change : Entries → Option Entries) :
    Key → Entries → Option Entries
  | [], table => change table
  | part :: rest, table =>
    match Keyed.lookup? part table with
    | none =>
      (changeNest throughArrays change rest []).map fun nest => Keyed.put part (.table nest) table
    | some (.table nest) =>
      (changeNest throughArrays change rest nest).map fun nest =>
        Keyed.put part (.table nest) table
    | some (.array items) =>
      match throughArrays, items.getLast? with
      | true, some (.table nest) =>
        (changeNest throughArrays change rest nest).map fun nest =>
          Keyed.put part (.array (items.dropLast ++ [.table nest])) table
      | _, _ => none
    | some _ => none

/-- The table with a new entry; there is none when the key is taken. -/
def define? (key : String) (value : Value) (table : Entries) : Option Entries :=
  if Keyed.hasKey key table then none else some (Keyed.put key value table)

/-- Splits a key into the way to its table and its last part. -/
def splitKey? (key : Key) : Option (Key × String) :=
  key.getLast?.map fun last => (key.dropLast, last)

/-- The table with a value assigned to a dotted key. -/
def assign? (throughArrays : Bool) (key : Key) (value : Value) (table : Entries) :
    Option Entries := do
  let (way, last) ← splitKey? key
  changeNest throughArrays (define? last value) way table

/-- Whether a value is written with brackets, which closes it. -/
def Value.isCompound : Value → Bool
  | .array _ | .table _ => true
  | _ => false

/-- Whether some key of a list is the start of another key. -/
def coversKey (closed : List Key) (key : Key) : Bool :=
  closed.any fun start => start.isPrefixOf key

/-! ## Values -/

/-- The text behind a comment in front; there is none when the comment holds a control
character. -/
def dropComment? (text : List Char) : Option (List Char) :=
  match text with
  | '#' :: rest =>
    if (rest.takeWhile (· != '\n')).all isLineChar then some (rest.dropWhile (· != '\n'))
    else none
  | _ => some text

/-- The text behind blanks, line ends and comments in front; the first argument bounds the number
of comments. -/
def dropArrayGapWith? : Nat → List Char → Option (List Char)
  | 0, text => some text
  | fuel + 1, text =>
    match text.dropWhile isGapOrLineEnd with
    | '#' :: rest => dropComment? ('#' :: rest) >>= dropArrayGapWith? fuel
    | rest => some rest

/-- The text behind blanks, line ends and comments in front. -/
def dropArrayGap? (text : List Char) : Option (List Char) :=
  dropArrayGapWith? text.length text

/-- Reads a value that is no array and no table. -/
def readSimple? (text : List Char) : Option (Value × List Char) :=
  match text with
  | '"' :: _ | '\'' :: _ => (readString? text).map fun (text, rest) => (.string text, rest)
  | 't' :: 'r' :: 'u' :: 'e' :: rest => some (.bool true, rest)
  | 'f' :: 'a' :: 'l' :: 's' :: 'e' :: rest => some (.bool false, rest)
  | _ =>
    match readMoment text with
    | .found rest => some (.moment, rest)
    | .impossible => none
    | .absent => readNumber? text

mutual

/-- Reads a value; the first argument bounds the nesting and the number of items. -/
def readValueWith? : Nat → List Char → Option (Value × List Char)
  | 0, _ => none
  | fuel + 1, text =>
    match text with
    | '[' :: rest =>
      match dropArrayGap? rest with
      | some (']' :: rest) => some (.array [], rest)
      | some rest => (readItems? fuel rest).map fun (items, rest) => (.array items, rest)
      | none => none
    | '{' :: rest =>
      match dropGap rest with
      | '}' :: rest => some (.table [], rest)
      | rest => (readMembers? fuel [] [] rest).map fun (table, rest) => (.table table, rest)
    | _ => readSimple? text

/-- Reads the items of an array up to its end. A comma may follow the last item. -/
def readItems? : Nat → List Char → Option (List Value × List Char)
  | 0, _ => none
  | fuel + 1, text =>
    match readValueWith? fuel text with
    | none => none
    | some (item, rest) =>
      match dropArrayGap? rest with
      | some (']' :: rest) => some ([item], rest)
      | some (',' :: rest) =>
        match dropArrayGap? rest with
        | some (']' :: rest) => some ([item], rest)
        | some rest => (readItems? fuel rest).map fun (items, rest) => (item :: items, rest)
        | none => none
      | _ => none

/-- Reads the members of an inline table up to its end, after the members in `table`, of which
those under the keys in `closed` may not be extended. -/
def readMembers? : Nat → List Key → Entries → List Char → Option (Entries × List Char)
  | 0, _, _, _ => none
  | fuel + 1, closed, table, text =>
    match readKey? text with
    | some (key, '=' :: rest) =>
      match readValueWith? fuel (dropGap rest) with
      | none => none
      | some (value, rest) =>
        if coversKey closed key then none
        else
          match assign? false key value table with
          | none => none
          | some table =>
            match dropGap rest with
            | '}' :: rest => some (table, rest)
            | ',' :: rest =>
              let closed := if value.isCompound then key :: closed else closed
              readMembers? fuel closed table (dropGap rest)
            | _ => none
    | _ => none

end

/-- Reads a value. -/
def readValue? (text : List Char) : Option (Value × List Char) :=
  readValueWith? (2 * text.length + 2) text

/-! ## Statements -/

/-- The root table while a document is read. -/
structure Document where
  /-- The root table. -/
  root : Entries
  /-- The table that assignments go to. -/
  header : Key
  /-- Keys of arrays and tables written with brackets; nothing below them may change. -/
  closed : List Key
  /-- Keys of tables that no header may open and no dotted key may extend any more. -/
  opened : List Key
  /-- Keys of tables that dotted keys opened since the last header. -/
  pending : List Key
deriving Repr

namespace Document

/-- The document without statements. -/
def empty : Document :=
  { root := [], header := [], closed := [], opened := [], pending := [] }

/-- The document after an assignment. -/
def assign? (doc : Document) (key : Key) (value : Value) : Option Document := do
  let (way, last) ← splitKey? key
  let passed := (List.range way.length).map fun count => doc.header ++ way.take (count + 1)
  -- A dotted key extends tables of its own section, not those of a header.
  if passed.any (doc.opened.contains ·) then none
  else if coversKey doc.closed (doc.header ++ way) then none
  else
    let root ← changeNest true (define? last value) (doc.header ++ way) doc.root
    let closed := if value.isCompound then (doc.header ++ key) :: doc.closed else doc.closed
    return { doc with root, closed, pending := passed ++ doc.pending }

/-- The document with the tables of dotted keys closed to headers. -/
def settle (doc : Document) : Document :=
  { doc with opened := doc.pending ++ doc.opened, pending := [] }

/-- The document after a header that opens a table. -/
def openTable? (doc : Document) (key : Key) : Option Document := do
  let doc := doc.settle
  if doc.opened.contains key || coversKey doc.closed key then none
  else
    let root ← changeNest true some key doc.root
    return { doc with root, header := key, opened := key :: doc.opened }

/-- Appends an empty table to the array under a key. -/
def appendTable? (key : String) (table : Entries) : Option Entries :=
  match Keyed.lookup? key table with
  | none => some (Keyed.put key (.array [.table []]) table)
  | some (.array items) => some (Keyed.put key (.array (items ++ [.table []])) table)
  | some _ => none

/-- The document after a header that appends a table to an array of tables. The tables below the
previous one may be opened anew. -/
def openItem? (doc : Document) (key : Key) : Option Document := do
  let doc := doc.settle
  let (way, last) ← splitKey? key
  if coversKey doc.closed key then none
  else
    let root ← changeNest true (appendTable? last) way doc.root
    -- Paths below the key now lead into the new table, to which no earlier rule applies.
    let isOutside (other : Key) := !key.isPrefixOf other
    return { doc with
      root
      header := key
      closed := doc.closed.filter isOutside
      opened := key :: doc.opened.filter isOutside }

end Document

/-- Reads one statement, if there is one on the line, and gives what follows. -/
def readStatement? (doc : Document) (text : List Char) : Option (Document × List Char) :=
  match text with
  | '[' :: '[' :: rest =>
    match readKey? (dropGap rest) with
    | some (key, ']' :: ']' :: rest) => (doc.openItem? key).map fun doc => (doc, dropGap rest)
    | _ => none
  | '[' :: rest =>
    match readKey? (dropGap rest) with
    | some (key, ']' :: rest) => (doc.openTable? key).map fun doc => (doc, dropGap rest)
    | _ => none
  | [] => some (doc, [])
  | '\n' :: _ | '#' :: _ => some (doc, text)
  | _ =>
    match readKey? text with
    | some (key, '=' :: rest) =>
      match readValue? (dropGap rest) with
      | some (value, rest) => (doc.assign? key value).map fun doc => (doc, dropGap rest)
      | none => none
    | _ => none

/-- Reads statements up to the end; the first argument bounds the number of lines. -/
def readStatements? : Nat → Document → List Char → Option Document
  | 0, _, _ => none
  | fuel + 1, doc, text =>
    match readStatement? doc (dropGap text) with
    | none => none
    | some (doc, rest) =>
      match dropComment? rest with
      | some [] => some doc
      | some ('\n' :: rest) => readStatements? fuel doc rest
      | _ => none

/-- The text with each carriage return before a line feed dropped. -/
def dropCarriageReturns : List Char → List Char
  | '\r' :: '\n' :: rest => '\n' :: dropCarriageReturns rest
  | c :: rest => c :: dropCarriageReturns rest
  | [] => []

/-- The root table of a document. -/
def read? (text : List Char) : Option Entries :=
  let text := dropCarriageReturns text
  (readStatements? (text.length + 1) .empty text).map (·.root)

end LuaGlobals.Toml
