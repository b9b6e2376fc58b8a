import LuaGlobals.Listing.Reader
import LuaGlobals.Reference.Basic

/-! # Resolving references

The resolver walks over the code of every function and decides for each instruction whether it
touches a name outside the variables of the unit:

* a read or write of a field of the environment, or of a captured table known to be a module;
* a field access that completes such a read a few instructions earlier, as in `foo.bar`;
* a field access on a local known to hold a module.

It also recognises `require "name"`, the declaration `module(...)`, and a main chunk that
returns a local. `resolveFunctions` resolves the functions of a listing, `resolveListing` a whole
listing.
-/

namespace LuaGlobals

/-! ## State -/

/-- A read that a following field access may complete. -/
structure PendingRead where
  /-- The position of the reading instruction. -/
  index : Nat
  /-- Its source line. -/
  line : Nat
  /-- The register that receives the value. -/
  register : Option Int
  /-- The name that was read. -/
  qualifier : String
  /-- The place of the reference that the read produced, if it produced one. -/
  reference : Option Nat
deriving DecidableEq, Repr

/-- What the resolver knows between two instructions. -/
structure ResolverState where
  /-- What was found so far. -/
  report : ReferenceReport
  /-- The locals of the unit that are bound to modules. -/
  known : KnownLocals
  /-- The variables of the function at hand. -/
  scope : FunctionScope
  /-- The most recent read, until it is completed. -/
  pending : Option PendingRead
  /-- Whether the outermost function is still being walked. -/
  inOutermost : Bool
deriving DecidableEq, Repr

namespace ResolverState

/-- The state before the first function, for a given registry of known locals. -/
def start (known : KnownLocals) : ResolverState :=
  { report := .empty, known, scope := ⟨[], []⟩, pending := none, inOutermost := true }

/-- Adds a reference. -/
def addReference (state : ResolverState) (line : Nat) (name : String) (write : Bool) :
    ResolverState :=
  { state with
    report := { state.report with
      references := state.report.references ++ [{ line, name, write }] } }

/-- Adds a read and leaves it pending. -/
def addPendingRead (state : ResolverState) (ins : Instruction) (name : String) : ResolverState :=
  { state.addReference ins.line name false with
    pending := some {
      index := ins.index
      line := ins.line
      register := ins.a
      qualifier := name
      reference := some state.report.references.length } }

/-- Registers the local at a place of the table of the function at hand. -/
def registerLocal (state : ResolverState) (index : Nat) : ResolverState :=
  match state.scope.locals[index]? with
  | some slot =>
    { state with known := state.known.register slot, scope := state.scope.markKnown index }
  | none => state

end ResolverState

/-! ## Owners of tables -/

/-- The table whose field an instruction accesses. -/
inductive TableOwner where
  /-- The environment. -/
  | environment
  /-- A captured module, under the name of its local. -/
  | captured (name : String)
  /-- Some other table. -/
  | foreign
deriving DecidableEq, Repr

/-- The captured variable that holds the environment. -/
def environmentName : String := "_ENV"

/-- The owner of the table that an instruction accesses through a numbered upvalue. -/
def ResolverState.owner (state : ResolverState) (ins : Instruction) (upvalue : Option Int) :
    TableOwner :=
  if ins.opcode = "GETGLOBAL" ∨ ins.opcode = "SETGLOBAL" then .environment
  else
    let name? := match state.scope.capturedAt? upvalue with
      | some captured => some captured.name
      | none => ins.upvalue
    match name? with
    | none => .environment
    | some name =>
      if name = environmentName then .environment
      else if state.known.contains name then .captured name
      else .foreign

/-! ## Idioms -/

/-- The instructions that may follow a read of `require`, and the module they load: the constant
right above the function, then the call. -/
def requireCall? (ins : Instruction) (rest : List Instruction) : Option (String × Instruction) :=
  match rest with
  | load :: call :: _ =>
    match load.constant with
    | some name =>
      if load.kind = .loadConstant ∧ load.a = some (ins.a.getD 0 + 1) ∧ call.kind = .call
        ∧ call.a = ins.a then some (name, call)
      else none
    | none => none
  | _ => none

/-- Records a requirement. The local that receives the result of the call, unless the call
discards it, becomes known. -/
def ResolverState.require (state : ResolverState) (ins : Instruction) (moduleName : String)
    (call : Instruction) : ResolverState :=
  -- A third operand of one means that the call keeps no results.
  let index? := if call.c = some 1 then none else state.scope.localIndexAt? call.a call.index
  let receiver := (index?.bind fun index => state.scope.locals[index]?).map (·.name)
  let state := match index? with
    | some index => state.registerLocal index
    | none => state
  { state with
    pending := none
    report := { state.report with
      requirements := state.report.requirements ++ [{ moduleName, line := ins.line, receiver }] } }

/-- Whether `package.seeall` is read before the call on a register; `previous` is the instruction
before the given ones. -/
def readsSeeall (register : Option Int) (previous : Option Instruction) : List Instruction → Bool
  | [] => false
  | ins :: rest =>
    if ins.kind = .call ∧ ins.a = register then false
    else
      (match previous with
        | some read =>
          read.kind == .globalGet && read.constant == some "package" && ins.kind == .tableGet
            && ins.constant == some "seeall"
        | none => false)
      || readsSeeall register (some ins) rest

/-- The remark after a read of `module`. -/
def ModuleRemark.declare (remark : ModuleRemark) (ins : Instruction) (rest : List Instruction) :
    ModuleRemark :=
  let name := match rest with
    | load :: _ => if load.kind = .loadConstant then load.constant else remark.name
    | [] => remark.name
  { remark with
    declared := true
    line := ins.line
    name
    strict := remark.strict || readsSeeall ins.a none rest }

/-! ## One instruction -/

/-- The state after an instruction, and the number of instructions behind it that are used up. -/
abbrev Step := ResolverState × Nat

/-- A read of a field of the environment or of a captured table. -/
def ResolverState.globalGet (state : ResolverState) (ins : Instruction)
    (rest : List Instruction) : Step :=
  match ins.constant, state.owner ins ins.b with
  | none, _ => (state, 0)
  | some _, .foreign => (state, 0)
  | some name, .captured table => (state.addPendingRead ins (Text.member table name), 0)
  | some name, .environment =>
    -- The read itself is a reference, also when an idiom follows.
    let state := state.addPendingRead ins name
    if name = "require" then
      match requireCall? ins rest with
      | some (moduleName, call) => (state.require ins moduleName call, 2)
      | none => (state, 0)
    else if name = "module" ∧ state.inOutermost then
      ({ state with
        report := { state.report with remark := state.report.remark.declare ins rest } }, 0)
    else (state, 0)

/-- A write of a field of the environment or of a captured table. -/
def ResolverState.globalSet (state : ResolverState) (ins : Instruction) : ResolverState :=
  match ins.constant, state.owner ins ins.a with
  | some name, .environment => state.addReference ins.line name true
  | some name, .captured table => state.addReference ins.line (Text.member table name) true
  | _, _ => state

/-- The greatest distance between a read and the field access that completes it. -/
def chainWindow : Nat := 2

/-- Whether a field access on a register completes a pending read. -/
def PendingRead.completedBy (pending : PendingRead) (ins : Instruction) (register : Option Int) :
    Bool :=
  pending.index < ins.index && ins.index ≤ pending.index + chainWindow
    && register == pending.register

/-- The state after a field access completed a pending read: the reference of the read is
replaced, or added if the read produced none. -/
def ResolverState.complete (state : ResolverState) (pending : PendingRead) (key : String)
    (write : Bool) : ResolverState :=
  let ref : Reference :=
    { line := pending.line, name := Text.member pending.qualifier key, write }
  let references := match pending.reference with
    | some place => state.report.references.set place ref
    | none => state.report.references ++ [ref]
  { state with pending := none, report := { state.report with references } }

/-- The pending read that a field access completes. -/
def ResolverState.completed? (state : ResolverState) (ins : Instruction) (register : Option Int) :
    Option PendingRead :=
  state.pending.filter (·.completedBy ins register)

/-- An access to a field of a table in a register. -/
def ResolverState.fieldAccess (state : ResolverState) (ins : Instruction) : ResolverState :=
  match ins.constant with
  | none => state
  | some key =>
    let write := ins.kind == .tableSet
    match state.completed? ins ins.tableRegister with
    | some pending => state.complete pending key write
    | none =>
      -- A read that is not completed here stays pending for the next instruction.
      match state.scope.localAt? ins.tableRegister ins.index with
      | some slot =>
        if slot.known then state.addReference ins.line (Text.member slot.name key) write
        else state
      | none => state

/-- A read of a captured variable, pending when the variable is known to hold a module. -/
def ResolverState.upvalueGet (state : ResolverState) (ins : Instruction) : ResolverState :=
  let name? := match state.scope.capturedAt? ins.b with
    | some captured => some captured.name
    | none => ins.constant
  match name? with
  | some name =>
    if name ≠ "" ∧ state.known.contains name then
      { state with
        pending := some {
          index := ins.index
          line := ins.line
          register := ins.a
          qualifier := name
          reference := none } }
    else state
  | none => state

/-- The state after one instruction, given those behind it. -/
def ResolverState.step (state : ResolverState) (ins : Instruction) (rest : List Instruction) :
    Step :=
  match ins.kind with
  | .globalGet => state.globalGet ins rest
  | .globalSet => (state.globalSet ins, 0)
  | .tableGet | .tableSet => (state.fieldAccess ins, 0)
  | .upvalueGet => (state.upvalueGet ins, 0)
  | .loadConstant | .call | .ret | .retNone | .other => (state, 0)

/-! ## Functions and listings -/

/-- Walks over the code of a function, where the first `used` instructions are used up. -/
def ResolverState.walkCode (state : ResolverState) : (used : Nat) → List Instruction →
    ResolverState
  | _, [] => state
  | used + 1, _ :: rest => state.walkCode used rest
  | 0, ins :: rest =>
    let (state, used) := state.step ins rest
    state.walkCode used rest

/-- Walks over one function. No read stays pending across functions. -/
def ResolverState.walk (state : ResolverState) (listing : FunctionListing) : ResolverState :=
  let state := { state with scope := listing.scope, pending := none }
  { state.walkCode 0 listing.instructions with pending := none, inOutermost := false }

/-- The place of the local that a main chunk returns as its only value. -/
def FunctionListing.returnedLocal? (main : FunctionListing) : Option Nat := do
  let ret ← main.finalReturn?
  if ret.opcode = "RETURN1" ∨ ret.b = some 2 then
    main.scope.localIndexAt? ret.a ret.index
  else none

/-- The state after looking for the local that the main chunk returns, and the main chunk with
that local known. -/
def ResolverState.detectSimpleModule (state : ResolverState) (main : FunctionListing) :
    ResolverState × FunctionListing :=
  match main.returnedLocal? with
  | none => (state, main)
  | some index =>
    match main.scope.locals[index]? with
    | none => (state, main)
    | some slot =>
      ({ state with
        known := state.known.register slot
        report := { state.report with
          remark := { state.report.remark with simpleModule := some slot.name } } },
        { main with scope := main.scope.markKnown index })

/-- The state after all functions of a listing, the outermost one first. -/
def resolveFunctions (functions : List FunctionListing) : ResolverState :=
  match functions with
  | [] => .start .empty
  | main :: rest =>
    let (state, main) := (ResolverState.start .empty).detectSimpleModule main
    (main :: rest).foldl ResolverState.walk state

/-- Resolves a complete listing. -/
def resolveListing (text : String) : Except ListingError ResolverState :=
  match readFunctions (.ofText text) with
  | (_, some error) => .error error
  | (functions, none) => .ok (resolveFunctions functions)

/-- The report on a complete listing. -/
def analyzeListing (text : String) : Except ListingError ReferenceReport :=
  (resolveListing text).map (·.report)

end LuaGlobals
