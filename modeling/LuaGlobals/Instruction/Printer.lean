import LuaGlobals.Instruction.Reader

/-! # Printing instruction lines

The compiler prints an instruction with tabs between its fields,

    <tab>index<tab>[line]<tab>MNEMONIC <tab>a b c<tab>; comment

where the mnemonic is filled up to its column and a dash stands for an unknown line.

* `printComment` is a comment that spells a constant and the name of a captured table.
* `Instruction.print` is the line of an instruction.
-/

namespace LuaGlobals

open Text

/-- The decimal digits of a number. -/
def printNumber (number : Nat) : List Char :=
  Nat.toDigits 10 number

/-- The line number between brackets. -/
def printLineField (line : Nat) : List Char :=
  '[' :: (if line = 0 then ['-'] else printNumber line) ++ [']']

/-- The mnemonic, filled up to the width of its column. -/
def printMnemonic (opcode : String) : List Char :=
  opcode.toList ++ List.replicate (9 - opcode.length) ' '

/-- One operand. -/
def printOperand (value : Int) : List Char :=
  if value < 0 then '-' :: printNumber value.natAbs else printNumber value.natAbs

/-- Operands with a space between two of them. -/
def printOperands : List Int → List Char
  | [] => []
  | value :: values => printOperand value ++ values.flatMap (' ' :: printOperand ·)

/-- A comment of a given shape that spells a constant and the name of a captured table. -/
def printComment (shape : CommentShape) (constant upvalue : Option String) : List Char :=
  match shape, constant, upvalue with
  | .symbol, some symbol, _ => symbol.toList
  | .tableThenKey, none, some table => table.toList
  | .tableThenKey, some key, some table => table.toList ++ ' ' :: quoteToken key.toList
  | .key, some key, _ => quoteToken key.toList
  | _, _, _ => []

/-- A comment behind its semicolon, if there is one. -/
def printCommentField (comment : List Char) : List Char :=
  if comment = [] then [] else '\t' :: ';' :: ' ' :: comment

namespace Instruction

/-- The operands that are kept. -/
def operands (ins : Instruction) : List Int :=
  [ins.a, ins.b, ins.c].filterMap id

/-- The texts that an instruction holds beside its mnemonic. -/
def texts (ins : Instruction) : List String :=
  ins.constant.toList ++ ins.upvalue.toList

/-- The comment that spells the constant and the captured table of an instruction. -/
def comment (ins : Instruction) : List Char :=
  printComment (.ofMnemonic ins.opcode) ins.constant ins.upvalue

/-- The line of an instruction. -/
def print (ins : Instruction) : List Char :=
  '\t' :: printNumber ins.index ++ '\t' :: printLineField ins.line
    ++ '\t' :: printMnemonic ins.opcode ++ '\t' :: printOperands ins.operands
    ++ printCommentField ins.comment

end Instruction

end LuaGlobals
