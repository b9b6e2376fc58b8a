import LuaGlobals.Instruction.Printer
import LuaGlobals.Listing.Reader

/-! # Printing listings

The compiler prints each function as a block of lines: a blank line, the header, the summary, one
line for each instruction, and a section for each table.

* `PrintedFunction` is what the block of a function shows.
* `PrintedFunction.lines` is the block, and `printListing` the listing of several functions.
* `PrintedFunction.listing` is the function that the block stands for.
-/

namespace LuaGlobals

open Text

/-- What the block of a function shows beside the function itself. -/
structure BlockLayout where
  /-- The number of bytes of the code, where the compiler prints it. -/
  bytes : Option Nat
  /-- The address of the function. -/
  address : Nat
  /-- The number of parameters. -/
  params : Nat
  /-- Whether further arguments are taken. -/
  variadic : Bool
  /-- The number of registers. -/
  slots : Nat
  /-- The number of functions inside the function. -/
  nested : Nat
deriving DecidableEq, Repr

/-- What the block of a function shows. -/
structure PrintedFunction where
  /-- Whether it is the main chunk. -/
  kind : FunctionKind
  /-- The name of the source. -/
  source : String
  /-- The line at which the definition starts. -/
  lineDefined : Nat
  /-- The line at which it ends. -/
  lastLine : Nat
  /-- The code. -/
  instructions : List Instruction
  /-- The rows of the constants. -/
  constants : List String
  /-- The rows of the locals. -/
  locals : List String
  /-- The rows of the upvalues. -/
  upvalues : List String
  /-- What else is shown. -/
  layout : BlockLayout
deriving DecidableEq, Repr

/-! ## Lines -/

/-- The end of a word for a number of things. -/
def plural (count : Nat) : List Char :=
  if count = 1 then [] else ['s']

/-- A number of things with the word for them. -/
def printCount (count : Nat) (word : String) : List Char :=
  printNumber count ++ ' ' :: (word.toList ++ plural count)

/-- An address in hexadecimal digits. -/
def printAddress (address : Nat) : List Char :=
  '0' :: 'x' :: Nat.toDigits 16 address

/-- The number of bytes of some code, where it is known. -/
def printByteCount : Option Nat → List Char
  | some bytes => ", ".toList ++ printNumber bytes ++ " bytes".toList
  | none => []

/-- The header of a section. -/
def printSectionHeader (kind : SectionKind) (count address : Nat) : List Char :=
  kind.keyword.toList ++ ' ' :: '(' :: (printNumber count ++
    ')' :: (" for ".toList ++ printAddress address ++ [':']))

/-- A section: its header, with the number of the rows, and the rows. -/
def printSection (kind : SectionKind) (rows : List String) (address : Nat) : List (List Char) :=
  printSectionHeader kind rows.length address :: rows.map String.toList

namespace PrintedFunction

/-- The size and the place of the code, at the end of the header. -/
def codeSize (function : PrintedFunction) : List Char :=
  " (".toList ++ printCount function.instructions.length "instruction"
    ++ printByteCount function.layout.bytes ++ " at ".toList
    ++ printAddress function.layout.address ++ [')']

/-- The header of the block. -/
def header (function : PrintedFunction) : List Char :=
  function.kind.keyword.toList ++ ' ' :: '<' :: (function.source.toList ++
    ':' :: (printNumber function.lineDefined ++
    ',' :: (printNumber function.lastLine ++ '>' :: function.codeSize)))

/-- The numbers of other things than parameters, at the end of the summary. -/
def otherCounts (function : PrintedFunction) : List Char :=
  let counts := [
    printCount function.layout.slots "slot",
    printCount function.upvalues.length "upvalue",
    printCount function.locals.length "local",
    printCount function.constants.length "constant",
    printCount function.layout.nested "function"]
  counts.flatMap (", ".toList ++ ·)

/-- The summary of the block. -/
def summary (function : PrintedFunction) : List Char :=
  printNumber function.layout.params ++ ((if function.layout.variadic then ['+'] else []) ++
    ' ' :: ("param".toList ++ (plural function.layout.params ++ function.otherCounts)))

/-- The three sections of the block. -/
def sections (function : PrintedFunction) : List (List Char) :=
  let address := function.layout.address
  printSection .constants function.constants address
    ++ printSection .locals function.locals address
    ++ printSection .upvalues function.upvalues address

/-- The lines of the block, the blank one in front included. -/
def lines (function : PrintedFunction) : List (List Char) :=
  [] :: function.header :: function.summary
    :: (function.instructions.map Instruction.print ++ function.sections)

/-- The function that the block stands for. -/
def listing (function : PrintedFunction) : FunctionListing :=
  { kind := function.kind
    source := function.source
    lineDefined := function.lineDefined
    instructions := function.instructions
    scope := .ofRows (function.locals.map String.toList) (function.upvalues.map String.toList) }

/-- The texts in the block. -/
def texts (function : PrintedFunction) : List String :=
  function.source :: function.instructions.flatMap Instruction.texts
    ++ function.constants ++ function.locals ++ function.upvalues

end PrintedFunction

/-- The listing of several functions, one block after the other. -/
def printListing (functions : List PrintedFunction) : String :=
  String.ofList (joinLines (functions.flatMap PrintedFunction.lines))

end LuaGlobals
