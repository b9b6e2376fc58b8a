import LuaGlobals.Text.Digit
import LuaGlobals.Text.Quoted
import LuaGlobals.Instruction.Basic
import LuaGlobals.Instruction.Comment

/-! # Reading instruction lines

A line of code has the fields

    index  [line]  MNEMONIC  a b c  ; comment

separated by blanks. The line number, the operands and the comment may be absent, a dash stands
for an unknown line, and an operand may carry the suffix `k` of a constant.

* `readInstruction? text` reads one instruction.
* `readCodeLine text` also knows the blank line that ends a function's code.
-/

namespace LuaGlobals

open Text

/-- What one line of a function's code holds. -/
inductive CodeLine where
  /-- A blank line, which ends the code. -/
  | boundary
  /-- An instruction. -/
  | instruction (ins : Instruction)
deriving DecidableEq, Repr

/-- A line of code that is neither blank nor an instruction. -/
structure MalformedInstruction where
  /-- The line without the blanks on its sides. -/
  text : String
deriving DecidableEq, Repr

/-- The message for a malformed line of code. -/
def MalformedInstruction.message (error : MalformedInstruction) : String :=
  "Malformed instruction line: " ++ quoteString error.text

/-! ## Fields -/

/-- Reads a number off the front of a text. -/
def readNumber? (text : List Char) : Option (Nat × List Char) :=
  let digits := text.takeWhile isDecimal
  if digits = [] then none else some (natOfDigits digits, text.dropWhile isDecimal)

/-- Reads at least one blank off the front of a text. -/
def readBlanks? (text : List Char) : Option (List Char) :=
  match text with
  | c :: rest => if isBlank c then some (dropBlanks rest) else none
  | [] => none

/-- Reads the line number between brackets and the blanks after it. -/
def readLineField? (text : List Char) : Option (Nat × List Char) :=
  match text with
  | '[' :: '-' :: ']' :: rest => (readBlanks? rest).map fun rest => (0, rest)
  | '[' :: rest =>
    match readNumber? rest with
    | some (line, ']' :: rest) => (readBlanks? rest).map fun rest => (line, rest)
    | _ => none
  | _ => some (0, text)

/-- Whether a character can start a mnemonic. -/
def isMnemonicStart (c : Char) : Bool :=
  'A' ≤ c && c ≤ 'Z'

/-- Whether a character can stand inside a mnemonic. -/
def isMnemonicChar (c : Char) : Bool :=
  isMnemonicStart c || ('0' ≤ c && c ≤ '9') || c == '_'

/-- Reads a mnemonic off the front of a text. -/
def readMnemonic? (text : List Char) : Option (String × List Char) :=
  match text with
  | c :: rest =>
    if isMnemonicStart c then
      some (String.ofList (c :: rest.takeWhile isMnemonicChar), rest.dropWhile isMnemonicChar)
    else none
  | [] => none

/-- Reads one operand with the blanks before it and the suffix after it. -/
def readOperand? (text : List Char) : Option (Int × List Char) := do
  let text ← readBlanks? text
  let (negative, text) := match text with
    | '-' :: rest => (true, rest)
    | _ => (false, text)
  let (value, text) ← readNumber? text
  let text := match text with
    | 'k' :: rest => rest
    | _ => text
  return (if negative then -(value : Int) else value, text)

/-- Reads operands off the front of a text, at most `count` of them. -/
def readOperands : Nat → List Char → List Int × List Char
  | 0, text => ([], text)
  | count + 1, text =>
    match readOperand? text with
    | none => ([], text)
    | some (value, rest) =>
      let (values, rest) := readOperands count rest
      (value :: values, rest)

/-- Reads the comment that ends a line; without a semicolon only blanks may follow. The comment
is cut to what stands between its blanks and must stand on one line. -/
def readComment? (text : List Char) : Option (List Char) :=
  match dropBlanks text with
  | [] => some []
  | ';' :: rest =>
    let comment := trim rest
    if '\n' ∈ comment then none else some comment
  | _ => none

/-! ## The meaning of a comment -/

/-- What the comment of an instruction spells. -/
inductive CommentShape where
  /-- A bare symbol, kept as it is. -/
  | symbol
  /-- The name of a captured table, then a key. -/
  | tableThenKey
  /-- A key or constant. -/
  | key
  /-- Nothing that matters here. -/
  | remark
deriving DecidableEq, Repr

/-- The shape of the comment of an instruction with a given mnemonic. -/
def CommentShape.ofMnemonic (opcode : String) : CommentShape :=
  match opcode with
  | "GETGLOBAL" | "SETGLOBAL" | "GETUPVAL" => .symbol
  | "GETTABUP" | "SETTABUP" => .tableThenKey
  | _ =>
    match OpcodeKind.ofMnemonic opcode with
    | .tableGet | .tableSet | .loadConstant => .key
    | _ => .remark

/-- The constant and the captured table that the tokens of a comment spell. A key counts only
when it is a quoted string. -/
def decodeComment (shape : CommentShape) (tokens : List (List Char)) :
    Option String × Option String :=
  match shape, tokens with
  | .symbol, token :: _ => (some (String.ofList token), none)
  | .tableThenKey, [table] => (none, some (String.ofList table))
  | .tableThenKey, table :: key :: _ =>
    ((unquote? key).map String.ofList, some (String.ofList table))
  | .key, token :: _ => ((unquote? token).map String.ofList, none)
  | _, _ => (none, none)

/-! ## Lines -/

/-- Reads one instruction line. Only the first three of at most four operands are kept. -/
def readInstruction? (text : List Char) : Option Instruction := do
  let (index, text) ← readNumber? (dropBlanks text)
  let text ← readBlanks? text
  let (line, text) ← readLineField? text
  let (opcode, text) ← readMnemonic? text
  let (operands, text) := readOperands 4 text
  let comment ← readComment? text
  let (constant, upvalue) := decodeComment (.ofMnemonic opcode) (commentTokens comment)
  return {
    index, line, opcode
    a := operands[0]?
    b := operands[1]?
    c := operands[2]?
    constant, upvalue }

/-- Reads one line of a function's code. -/
def readCodeLine (text : List Char) : Except MalformedInstruction CodeLine :=
  if isBlankText text then .ok .boundary
  else
    match readInstruction? text with
    | some ins => .ok (.instruction ins)
    | none => .error ⟨String.ofList (trim text)⟩

end LuaGlobals
