import LuaGlobals.Instruction.Reader
import LuaGlobals.Scope.Basic

/-! # Reading the variable tables of a listing

After the code of a function a listing prints one row for each local, with its name and the range
of instructions in which it lives, and one row for each upvalue. It prints no registers.

* `readLocalRow?` and `readUpvalueRow?` read one row.
* `assignRegisters` finds the register of each local: the number of earlier locals that are
  still alive where it starts.
* `FunctionScope.ofRows` builds the tables of a function.
-/

namespace LuaGlobals

open Text

/-- A row of the table of locals: a name and the range in which it lives, end excluded. -/
structure LocalRow where
  /-- The name, in parentheses when the compiler made the local. -/
  name : String
  /-- The first instruction at which the local is alive. -/
  start : Nat
  /-- The first instruction at which it is alive no more. -/
  stop : Nat
deriving DecidableEq, Repr

/-! ## Rows -/

/-- Reads the two numbers that end a row, with the blanks around them. -/
def readRange? (text : List Char) : Option (Nat × Nat) := do
  let text ← readBlanks? text
  let (start, text) ← readNumber? text
  let text ← readBlanks? text
  let (stop, text) ← readNumber? text
  if isBlankText text then some (start, stop) else none

/-- Reads a name and the range after it. The name is as short as possible, has at least one
character, and stands on one line. -/
def readNameAndRange? : List Char → Option (List Char × Nat × Nat)
  | [] => none
  | c :: rest =>
    if c = '\n' then none
    else
      match readRange? rest with
      | some range => some ([c], range)
      | none => (readNameAndRange? rest).map fun (name, range) => (c :: name, range)

/-- Reads a row of the table of locals: number, name and range. The gap before the name is as
wide as possible. -/
def readLocalRow? (row : List Char) : Option LocalRow := do
  let (_, text) ← readNumber? (dropBlanks row)
  -- A name may start with blanks only where no name without them fits.
  let gap := (text.takeWhile isBlank).length
  let (name, start, stop) ← (List.range gap).reverse.findSome? fun blanks =>
    readNameAndRange? (text.drop (blanks + 1))
  return { name := String.ofList name, start, stop }

/-- Reads a row of the table of upvalues: number and name. -/
def readUpvalueRow? (row : List Char) : Option CapturedVariable := do
  let (slot, text) ← readNumber? (dropBlanks row)
  let text ← readBlanks? text
  let name := text.takeWhile (!isBlank ·)
  if name = [] then none else some { slot, name := String.ofList name }

/-! ## Registers -/

/-- Whether the compiler made a local. -/
def LocalRow.isInternal (row : LocalRow) : Bool :=
  row.name.toList.head? == some '('

/-- The number of rows that are still alive at an instruction. -/
def aliveAt (earlier : List LocalRow) (position : Nat) : Nat :=
  earlier.countP fun row => position < row.stop

/-- The local of a row in its register. The instruction before the printed start assigns the
first value, so the range starts there; it is never empty. -/
def LocalRow.toSlot (row : LocalRow) (register : Nat) : LocalSlot :=
  { slot := register, name := row.name, start := row.start - 1
    stop := max row.stop (row.start - 1), known := false }

/-- The locals of the rows, each in its register, given the rows before them. Locals made by the
compiler take registers and are left out. -/
def assignRegisters (earlier : List LocalRow) : List LocalRow → List LocalSlot
  | [] => []
  | row :: rest =>
    let later := assignRegisters (earlier ++ [row]) rest
    if row.isInternal then later else row.toSlot (aliveAt earlier row.start) :: later

/-- The tables of a function from the rows of its listing. Rows that cannot be read are left
out. -/
def FunctionScope.ofRows (localRows upvalueRows : List (List Char)) : FunctionScope :=
  { locals := assignRegisters [] (localRows.filterMap readLocalRow?)
    captured := upvalueRows.filterMap readUpvalueRow? }

end LuaGlobals
