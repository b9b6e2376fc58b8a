import LuaGlobals.Instruction.Basic
import LuaGlobals.Scope.Basic

/-! # Functions of a listing

A listing shows the functions of a unit one after the other, the main chunk first.

* `FunctionListing` holds the code and the variables of one function.
* `FunctionListing.finalReturn?` is the last return that the source wrote.
-/

namespace LuaGlobals

/-- Whether a function is the main chunk of its unit. -/
inductive FunctionKind where
  /-- The main chunk. -/
  | main
  /-- A function inside it. -/
  | function
deriving DecidableEq, Repr

/-- The word that opens the header of a function. -/
def FunctionKind.keyword : FunctionKind → String
  | .main => "main"
  | .function => "function"

/-- One function of a listing. -/
structure FunctionListing where
  /-- Whether it is the main chunk. -/
  kind : FunctionKind
  /-- The name of the source. -/
  source : String
  /-- The line at which its definition starts. -/
  lineDefined : Nat
  /-- Its code. -/
  instructions : List Instruction
  /-- Its variables. -/
  scope : FunctionScope
deriving DecidableEq, Repr

namespace FunctionListing

/-- A short description of a function. -/
def description (listing : FunctionListing) : String :=
  "FunctionListing(" ++ listing.kind.keyword ++ " <" ++ listing.source ++ ":"
    ++ toString listing.lineDefined ++ ">, " ++ toString listing.instructions.length
    ++ " instructions)"

/-- Whether an instruction returns no values, as the compiler makes every function end. -/
def returnsNothing (ins : Instruction) : Bool :=
  ins.kind == .retNone || (ins.opcode == "RETURN" && ins.b == some 1)

/-- The last instruction that is not an empty return, if it is a return. -/
def finalReturn? (listing : FunctionListing) : Option Instruction :=
  match listing.instructions.reverse.dropWhile returnsNothing with
  | ins :: _ => if ins.kind = .ret then some ins else none
  | [] => none

end FunctionListing

end LuaGlobals
