import LuaGlobals.Listing.Basic
import LuaGlobals.Scope.Rows
import LuaGlobals.Text.Lines

/-! # Reading a listing

Each function is printed as a block of lines:

    main <file.lua:0,0> (4 instructions at 0x55d0)
    0+ params, 2 slots, 1 upvalue, 1 local, 2 constants, 0 functions
            1       [1]     GETTABUP        0 0 -1  ; _ENV "require"
            ...
    constants (2) for 0x55d0:
            ...
    locals (1) for 0x55d0:
            0       t       4       5
    upvalues (1) for 0x55d0:
            0       _ENV    1       0

A section announces the number of its rows, so a row may hold any text.

* `LineReader` is what is left of the lines of a listing, with a count of the lines read.
* `readFunction` reads the next block.
* `readFunctions` reads all blocks up to the end or the first error.
* `ListingError` is what can be wrong with a listing.
-/

namespace LuaGlobals

open Text

/-! ## Errors -/

/-- The sections after the code of a function. -/
inductive SectionKind where
  /-- The constants, which are not looked at. -/
  | constants
  /-- The locals. -/
  | locals
  /-- The upvalues. -/
  | upvalues
deriving DecidableEq, Repr

/-- The word that opens a section. -/
def SectionKind.keyword : SectionKind → String
  | .constants => "constants"
  | .locals => "locals"
  | .upvalues => "upvalues"

/-- What can be wrong with a listing. -/
inductive ListingError where
  /-- Another line stands where a function should start. -/
  | noHeader (line : Nat) (text : String)
  /-- The line after a header does not sum up the function. -/
  | noSummary (line : Nat)
  /-- A line of code is no instruction. -/
  | badInstruction (line : Nat) (cause : MalformedInstruction)
  /-- The listing ends inside a section. -/
  | truncated (kind : SectionKind)
deriving DecidableEq, Repr

/-- The message for an error in a listing. -/
def ListingError.message : ListingError → String
  | .noHeader line text =>
    "Line " ++ toString line ++ ": expected a function header, got " ++ quoteString text
  | .noSummary line => "Line " ++ toString line ++ ": missing parameter/slot summary"
  | .badInstruction line cause => "Line " ++ toString line ++ ": " ++ cause.message
  | .truncated kind => "Truncated " ++ kind.keyword ++ " section"

/-! ## Lines that are not code -/

/-- Reads the two line numbers that end the name of a source and gives the first. -/
def readLineSpan? (text : List Char) : Option Nat :=
  match text with
  | ':' :: rest =>
    match readNumber? rest with
    | some (first, ',' :: rest) =>
      match readNumber? rest with
      | some (_, '>' :: _) => some first
      | _ => none
    | _ => none
  | _ => none

/-- Reads the name of a source up to the last line numbers on its line. -/
def readSource? : List Char → Option (List Char × Nat)
  | [] => none
  | c :: rest =>
    match readSource? rest with
    | some (source, line) => some (c :: source, line)
    | none => (readLineSpan? (c :: rest)).map fun line => ([], line)

/-- What the header of a function says. -/
structure FunctionHeader where
  /-- Whether the function is the main chunk. -/
  kind : FunctionKind
  /-- The name of the source. -/
  source : String
  /-- The line at which the definition starts. -/
  lineDefined : Nat
deriving DecidableEq, Repr

/-- Reads the word that opens a header. -/
def readFunctionKind? (text : List Char) : Option (FunctionKind × List Char) :=
  match "main".toList.isPrefixOf? text with
  | some rest => some (.main, rest)
  | none => ("function".toList.isPrefixOf? text).map fun rest => (.function, rest)

/-- Reads the header of a function. -/
def readHeader? (line : List Char) : Option FunctionHeader := do
  let (kind, text) ← readFunctionKind? (dropBlanks line)
  let text ← readBlanks? text
  match text with
  | '<' :: rest =>
    let (source, lineDefined) ← readSource? (rest.takeWhile (· != '\n'))
    return { kind, source := String.ofList source, lineDefined }
  | _ => none

/-- Whether a line sums up the parameters and slots of a function. -/
def isSummary (line : List Char) : Bool :=
  let afterCount := do
    let (_, text) ← readNumber? (dropBlanks line)
    let text := match text with
      | '+' :: rest => rest
      | _ => text
    let text ← readBlanks? text
    "param".toList.isPrefixOf? text
  match afterCount with
  | some (',' :: _) => true
  | some ('s' :: ',' :: _) => true
  | _ => false

/-- Reads the word that opens a section. -/
def readSectionKind? (text : List Char) : Option (SectionKind × List Char) :=
  [SectionKind.constants, .locals, .upvalues].findSome? fun kind =>
    (kind.keyword.toList.isPrefixOf? text).map fun rest => (kind, rest)

/-- Reads the header of a section: its kind and the number of its rows. -/
def readSectionHeader? (line : List Char) : Option (SectionKind × Nat) := do
  let (kind, text) ← readSectionKind? (dropBlanks line)
  let text ← readBlanks? text
  match text with
  | '(' :: rest =>
    match readNumber? rest with
    | some (count, ')' :: _) => some (kind, count)
    | _ => none
  | _ => none

/-! ## Blocks -/

/-- The lines of a listing that are still to be read. -/
structure LineReader where
  /-- The lines, without their line ends. -/
  remaining : List (List Char)
  /-- The number of lines already read. -/
  consumed : Nat
deriving DecidableEq, Repr

/-- A reader before the first of the given lines. -/
def LineReader.ofLines (lines : List (List Char)) : LineReader :=
  { remaining := lines.map dropLineEnd, consumed := 0 }

/-- A reader before the first line of a text. -/
def LineReader.ofText (text : String) : LineReader :=
  .ofLines (splitLines text.toList)

/-- What reading a part of a listing gives, and the reader behind that part. -/
abbrev Reading (α : Type) :=
  Except ListingError α × LineReader

/-- Whether a line ends the code of a function without being part of it. -/
def endsCode (line : List Char) : Bool :=
  (readSectionHeader? line).isSome || (readHeader? line).isSome

/-- Reads the code of a function: instructions up to a blank line, which is read too, a section,
a header or the end. -/
def readCode (consumed : Nat) : List (List Char) → Reading (List Instruction)
  | [] => (.ok [], ⟨[], consumed⟩)
  | line :: rest =>
    -- A line that opens something else is left for the next reader.
    if endsCode line then (.ok [], ⟨line :: rest, consumed⟩)
    else
      match readCodeLine line with
      | .error cause => (.error (.badInstruction (consumed + 1) cause), ⟨rest, consumed + 1⟩)
      | .ok .boundary => (.ok [], ⟨rest, consumed + 1⟩)
      | .ok (.instruction ins) =>
        let (code, reader) := readCode (consumed + 1) rest
        (code.map (ins :: ·), reader)

/-- The rows of the sections of a function. -/
structure SectionRows where
  /-- The rows of the locals. -/
  locals : List (List Char)
  /-- The rows of the upvalues. -/
  upvalues : List (List Char)
deriving DecidableEq, Repr

/-- No rows. -/
def SectionRows.empty : SectionRows :=
  ⟨[], []⟩

/-- The rows of a section before the given ones. Rows of constants are not kept. -/
def SectionRows.add (kind : SectionKind) (rows : List (List Char)) (later : SectionRows) :
    SectionRows :=
  match kind with
  | .constants => later
  | .locals => { later with locals := rows ++ later.locals }
  | .upvalues => { later with upvalues := rows ++ later.upvalues }

/-- Reads sections up to a line that opens none. -/
def readSections (consumed : Nat) (lines : List (List Char)) : Reading SectionRows :=
  match lines with
  | [] => (.ok .empty, ⟨[], consumed⟩)
  | line :: rest =>
    match readSectionHeader? line with
    | none => (.ok .empty, ⟨line :: rest, consumed⟩)
    | some (kind, count) =>
      if rest.length < count then (.error (.truncated kind), ⟨[], consumed + 1 + rest.length⟩)
      else
        let (later, reader) := readSections (consumed + 1 + count) (rest.drop count)
        (later.map (.add kind (rest.take count)), reader)
termination_by lines.length
decreasing_by simp only [List.length_drop, List.length_cons]; omega

/-- The reader behind the blank lines in front. -/
def LineReader.skipBlankLines (reader : LineReader) : LineReader :=
  { remaining := reader.remaining.dropWhile isBlankText
    consumed := reader.consumed + (reader.remaining.takeWhile isBlankText).length }

/-- Reads what follows the header and the summary of a function. -/
def readBody (header : FunctionHeader) (reader : LineReader) : Reading FunctionListing :=
  match readCode reader.consumed reader.remaining with
  | (.error error, reader) => (.error error, reader)
  | (.ok instructions, reader) =>
    match readSections reader.consumed reader.remaining with
    | (.error error, reader) => (.error error, reader)
    | (.ok rows, reader) =>
      (.ok {
        kind := header.kind
        source := header.source
        lineDefined := header.lineDefined
        instructions
        scope := .ofRows rows.locals rows.upvalues }, reader)

/-- Reads what follows the header of a function. -/
def readAfterHeader (header : FunctionHeader) (reader : LineReader) : Reading FunctionListing :=
  match reader.remaining with
  | [] => (.error (.noSummary reader.consumed), reader)
  | line :: rest =>
    let reader := ⟨rest, reader.consumed + 1⟩
    if isSummary line then readBody header reader
    else (.error (.noSummary reader.consumed), reader)

/-- Reads the next function; there is none when only blank lines are left. -/
def readFunction (reader : LineReader) : Reading (Option FunctionListing) :=
  let reader := reader.skipBlankLines
  match reader.remaining with
  | [] => (.ok none, reader)
  | line :: rest =>
    let reader := ⟨rest, reader.consumed + 1⟩
    match readHeader? line with
    | none => (.error (.noHeader reader.consumed (String.ofList (trim line))), reader)
    | some header =>
      let (listing, reader) := readAfterHeader header reader
      (listing.map some, reader)

/-! ## Whole listings -/

/-- Reading code never adds lines. -/
theorem readCode_remaining_le (consumed : Nat) (lines : List (List Char)) :
    (readCode consumed lines).2.remaining.length ≤ lines.length := by
  fun_induction readCode consumed lines with
  | case1 => simp
  | case2 => simp
  | case3 => simp
  | case4 => simp
  | case5 consumed line rest _ ins _ code reader hread ih =>
    simp only [hread, List.length_cons] at ih ⊢
    omega

/-- Reading sections never adds lines. -/
theorem readSections_remaining_le (consumed : Nat) (lines : List (List Char)) :
    (readSections consumed lines).2.remaining.length ≤ lines.length := by
  fun_induction readSections consumed lines with
  | case1 => simp
  | case2 => simp
  | case3 => simp
  | case4 consumed line rest kind count _ _ later reader hread ih =>
    simp only [hread, List.length_drop, List.length_cons] at ih ⊢
    omega

/-- Reading the body of a function never adds lines. -/
theorem readBody_remaining_le (header : FunctionHeader) (reader : LineReader) :
    (readBody header reader).2.remaining.length ≤ reader.remaining.length := by
  have hcode := readCode_remaining_le reader.consumed reader.remaining
  unfold readBody
  split
  · simp_all
  · rename_i instructions after heq
    have hsections := readSections_remaining_le after.consumed after.remaining
    rw [heq] at hcode
    split <;> rename_i hs <;> rw [hs] at hsections <;> exact Nat.le_trans hsections hcode

/-- Each function that is read takes at least one line. -/
theorem readFunction_remaining_lt {reader after : LineReader} {listing : FunctionListing}
    (h : readFunction reader = (.ok (some listing), after)) :
    after.remaining.length < reader.remaining.length := by
  have hskip : reader.skipBlankLines.remaining.length ≤ reader.remaining.length :=
    (List.dropWhile_sublist _).length_le
  unfold readFunction at h
  dsimp only at h
  split at h
  · simp at h
  · rename_i line rest hlines
    rw [hlines, List.length_cons] at hskip
    split at h
    · simp at h
    · rename_i header _
      have hafter : after = (readAfterHeader header
          ⟨rest, reader.skipBlankLines.consumed + 1⟩).2 := by
        simpa using (congrArg Prod.snd h).symm
      suffices after.remaining.length ≤ rest.length by omega
      rw [hafter]
      unfold readAfterHeader
      dsimp only
      split
      · simp
      · rename_i summary rest'
        split
        · exact Nat.le_trans (readBody_remaining_le _ _) (by simp)
        · simp

/-- All functions up to the end or the first error, and that error. -/
def readFunctions (reader : LineReader) : List FunctionListing × Option ListingError :=
  match _h : readFunction reader with
  | (.error error, _) => ([], some error)
  | (.ok none, _) => ([], none)
  | (.ok (some listing), after) =>
    let (later, error) := readFunctions after
    (listing :: later, error)
termination_by reader.remaining.length
decreasing_by exact readFunction_remaining_lt _h

end LuaGlobals
