import LuaGlobals.Instruction.Basic

/-! # Walking over instructions

A cursor hands out the instructions of one function in order and then reports the boundary of the
function, once.

* `InstructionCursor.next` hands out the next item.
* `InstructionCursor.peek?` looks ahead without moving.
* `InstructionCursor.skip` moves past instructions that were looked at.
-/

namespace LuaGlobals

/-- What a cursor hands out. -/
inductive CursorItem where
  /-- The next instruction. -/
  | instruction (ins : Instruction)
  /-- The end of the function, reported once. -/
  | boundary
  /-- Nothing is left. -/
  | finished
deriving DecidableEq, Repr

/-- A position in the instructions of a function. -/
structure InstructionCursor where
  /-- All instructions of the function. -/
  instructions : List Instruction
  /-- How many instructions lie behind the cursor. A negative position counts from the end. -/
  position : Int
  /-- Whether the boundary was reported. -/
  done : Bool
deriving DecidableEq, Repr

namespace InstructionCursor

/-- A cursor before the first instruction. -/
def start (instructions : List Instruction) : InstructionCursor :=
  { instructions, position := 0, done := false }

/-- The number of instructions. -/
def size (cursor : InstructionCursor) : Int :=
  cursor.instructions.length

/-- The instruction at a position from zero on. -/
def at? (cursor : InstructionCursor) (position : Int) : Option Instruction :=
  if 0 ≤ position then cursor.instructions[position.toNat]? else none

/-- Hands out the next item and moves past it. -/
def next (cursor : InstructionCursor) : CursorItem × InstructionCursor :=
  let position := if cursor.position < 0 then cursor.size + cursor.position else cursor.position
  match cursor.at? position with
  | some ins => (.instruction ins, { cursor with position := cursor.position + 1 })
  | none =>
    if cursor.done then (.finished, cursor) else (.boundary, { cursor with done := true })

/-- The instruction `offset` places ahead, where the next one is one place ahead. -/
def peek? (cursor : InstructionCursor) (offset : Int) : Option Instruction :=
  cursor.at? (cursor.position + offset - 1)

/-- Moves `count` instructions on, at most to the end. -/
def skip (cursor : InstructionCursor) (count : Int) : InstructionCursor :=
  { cursor with position := min (cursor.position + count) cursor.size }

/-- Hands out items until nothing is left, each call moving at least one step; `fuel` bounds the
number of items. -/
def drainWith : Nat → InstructionCursor → List CursorItem × InstructionCursor
  | 0, cursor => ([], cursor)
  | fuel + 1, cursor =>
    match cursor.next with
    | (.finished, cursor) => ([], cursor)
    | (item, cursor) =>
      let (items, cursor) := drainWith fuel cursor
      (item :: items, cursor)

/-- Hands out all items that are left. -/
def drain (cursor : InstructionCursor) : List CursorItem × InstructionCursor :=
  drainWith ((cursor.size - cursor.position).toNat + 1) cursor

end InstructionCursor

end LuaGlobals
