/-! # Instructions of a listing

A listing shows one virtual machine instruction a line. This module holds the instruction itself
and what its mnemonic says about it.

* `Instruction` is the decoded line.
* `OpcodeKind` classifies mnemonics by the part they play in access to globals.
* `Instruction.tableRegister` is the register of the table that a field access indexes.
-/

namespace LuaGlobals

/-- The part an instruction plays in the access to globals. -/
inductive OpcodeKind where
  /-- Reads a field of a function's environment or of another captured table. -/
  | globalGet
  /-- Writes a field of a function's environment or of another captured table. -/
  | globalSet
  /-- Reads a field of a table held in a register. -/
  | tableGet
  /-- Writes a field of a table held in a register. -/
  | tableSet
  /-- Loads a captured variable into a register. -/
  | upvalueGet
  /-- Loads a constant into a register. -/
  | loadConstant
  /-- Calls a function. -/
  | call
  /-- Returns from the function. -/
  | ret
  /-- Returns from the function without values. -/
  | retNone
  /-- Plays no part. -/
  | other
deriving DecidableEq, Repr

/-- The kind of the instruction with a given mnemonic. -/
def OpcodeKind.ofMnemonic (opcode : String) : OpcodeKind :=
  match opcode with
  | "GETGLOBAL" | "GETTABUP" => .globalGet
  | "SETGLOBAL" | "SETTABUP" => .globalSet
  | "GETTABLE" | "GETFIELD" | "SELF" => .tableGet
  | "SETTABLE" | "SETFIELD" => .tableSet
  | "GETUPVAL" => .upvalueGet
  | "LOADK" => .loadConstant
  | "CALL" | "TAILCALL" => .call
  | "RETURN" | "RETURN1" => .ret
  | "RETURN0" => .retNone
  | _ => .other

/-- The word that names a kind in reports. -/
def OpcodeKind.label : OpcodeKind → String
  | .globalGet => "global_get"
  | .globalSet => "global_set"
  | .tableGet => "table_get"
  | .tableSet => "table_set"
  | .upvalueGet => "upvalue_get"
  | .loadConstant => "load_constant"
  | .call => "call"
  | .ret => "return"
  | .retNone => "return_none"
  | .other => "other"

/-- One decoded instruction. -/
structure Instruction where
  /-- The position in its function, counted from one. -/
  index : Nat
  /-- The source line, zero when the listing does not know it. -/
  line : Nat
  /-- The mnemonic. -/
  opcode : String
  /-- The first operand, if printed. -/
  a : Option Int
  /-- The second operand, if printed. -/
  b : Option Int
  /-- The third operand, if printed. -/
  c : Option Int
  /-- The constant that the comment spells: the payload of a string or a bare symbol. -/
  constant : Option String
  /-- The name of the captured table that the comment spells. -/
  upvalue : Option String
deriving DecidableEq, Repr

/-- The kind of an instruction. -/
def Instruction.kind (ins : Instruction) : OpcodeKind :=
  .ofMnemonic ins.opcode

/-- The register of the table that a field access indexes: a read has it in its second operand,
a write in its first. -/
def Instruction.tableRegister (ins : Instruction) : Option Int :=
  match ins.kind with
  | .tableGet => ins.b
  | .tableSet => ins.a
  | _ => none

end LuaGlobals
