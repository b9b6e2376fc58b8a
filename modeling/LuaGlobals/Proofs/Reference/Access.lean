import LuaGlobals.Reference.Resolver

/-! # What a unit accesses, without state

The resolver builds its list of references in one pass, with an index into the list for the read
that a later field access may complete. This file says in two passes which references there are.

* **`Surroundings.accesses`** is the first pass. It classifies every instruction by itself, from
  the variables in sight and the locals that are known before it. No instruction is passed over.
* **`referencesOf`** is the second pass. It names each read by looking ahead for the field access
  that completes it (`completion?`), and lets a field access that completes a read add nothing of
  its own (`waiting?` looks back for that read).
* **`expectedReferences`** runs both passes over all functions of a unit. -/

namespace LuaGlobals

/-! ## What an instruction can see -/

/-- The variables that an instruction can see. -/
structure Surroundings where
  /-- The locals of the unit that are known to hold modules. -/
  known : KnownLocals
  /-- The variables of the function at hand. -/
  scope : FunctionScope
deriving DecidableEq, Repr

namespace Surroundings

/-- The captured variable whose table an instruction indexes: the one that the upvalue has in the
scope, else the one that the comment names. -/
def tableName? (around : Surroundings) (ins : Instruction) (upvalue : Option Int) :
    Option String :=
  ((around.scope.capturedAt? upvalue).map (·.name)).or ins.upvalue

/-- Whether an instruction indexes the environment. A table without a name is the environment. -/
def onEnvironment (around : Surroundings) (ins : Instruction) (upvalue : Option Int) : Bool :=
  ins.opcode == "GETGLOBAL" || ins.opcode == "SETGLOBAL"
    || (around.tableName? ins upvalue).getD environmentName == environmentName

/-- The qualified name of a field of the environment or of a captured module; a field of another
table has none. -/
def qualify? (around : Surroundings) (ins : Instruction) (upvalue : Option Int)
    (field : String) : Option String :=
  if around.onEnvironment ins upvalue then some field
  else ((around.tableName? ins upvalue).filter around.known.contains).map (Text.member · field)

/-- The captured module that an instruction loads into a register. -/
def captured? (around : Surroundings) (ins : Instruction) : Option String :=
  (((around.scope.capturedAt? ins.b).map (·.name)).or ins.constant).filter fun name =>
    name != "" && around.known.contains name

/-- The known local that holds the table of a field access. -/
def holder? (around : Surroundings) (ins : Instruction) : Option String :=
  ((around.scope.localAt? ins.tableRegister ins.index).filter (·.known)).map (·.name)

/-- The call of the global `require` that an instruction starts. -/
def requires? (around : Surroundings) (ins : Instruction) (rest : List Instruction) :
    Option (String × Instruction) :=
  if ins.kind = .globalGet ∧ ins.constant = some "require" ∧ around.onEnvironment ins ins.b then
    requireCall? ins rest
  else none

/-- The surroundings in which the local at a place of the scope is known. -/
def register (around : Surroundings) (index : Nat) : Surroundings :=
  match around.scope.locals[index]? with
  | some slot => ⟨around.known.register slot, around.scope.markKnown index⟩
  | none => around

/-- The surroundings behind an instruction: the local that receives a required module becomes
known. -/
def next (around : Surroundings) (ins : Instruction) (rest : List Instruction) : Surroundings :=
  match around.requires? ins rest with
  | none => around
  | some (_, call) =>
    if call.c = some 1 then around
    else ((around.scope.localIndexAt? call.a call.index).map around.register).getD around

/-- The surroundings behind the code of a function. -/
def after (around : Surroundings) : List Instruction → Surroundings
  | [] => around
  | ins :: rest => (around.next ins rest).after rest

end Surroundings

/-! ## First pass: classifying instructions -/

/-- What an instruction does with names outside the variables of its function. -/
inductive AccessKind where
  /-- It reads a global or a field of a captured module. -/
  | read (name : String)
  /-- It reads `require` for the call right behind it. -/
  | require
  /-- It assigns a global or a field of a captured module. -/
  | assign (name : String)
  /-- It loads a captured module into a register. -/
  | load (name : String)
  /-- It reads or assigns a field of the table in a register, which a known local may hold. -/
  | field (key : String) (write : Bool) (holder : Option String)
  /-- It does none of these. -/
  | unrelated
deriving DecidableEq, Repr

/-- An instruction with what it does. -/
structure Access where
  /-- The instruction. -/
  instruction : Instruction
  /-- What it does. -/
  kind : AccessKind
deriving DecidableEq, Repr

namespace Surroundings

/-- What an instruction does in given surroundings. -/
def classify (around : Surroundings) (ins : Instruction) (rest : List Instruction) :
    AccessKind :=
  match ins.kind with
  | .globalGet =>
    if (around.requires? ins rest).isSome then .require
    else ((ins.constant.bind (around.qualify? ins ins.b)).map .read).getD .unrelated
  | .globalSet =>
    ((ins.constant.bind (around.qualify? ins ins.a)).map .assign).getD .unrelated
  | .upvalueGet => ((around.captured? ins).map .load).getD .unrelated
  | .tableGet | .tableSet =>
    (ins.constant.map fun key =>
      AccessKind.field key (ins.kind == .tableSet) (around.holder? ins)).getD .unrelated
  | .loadConstant | .call | .ret | .retNone | .other => .unrelated

/-- The accesses of the code of a function, one for each instruction. -/
def accesses (around : Surroundings) : List Instruction → List Access
  | [] => []
  | ins :: rest => ⟨ins, around.classify ins rest⟩ :: (around.next ins rest).accesses rest

end Surroundings

/-! ## Second pass: naming references -/

namespace Access

/-- The name under which an access waits for a field access to complete it. -/
def awaited? (access : Access) : Option String :=
  match access.kind with
  | .read name | .load name => some name
  | _ => none

/-- Whether an access takes the place of a read that waits before it. -/
def supersedes (access : Access) : Bool :=
  match access.kind with
  | .read _ | .load _ | .require => true
  | _ => false

/-- The key of a field access, and whether it assigns. -/
def field? (access : Access) : Option (String × Bool) :=
  match access.kind with
  | .field key write _ => some (key, write)
  | _ => none

/-- Whether a later field access completes a read: it follows within the window, on the register
that received the value. -/
def completedBy (read later : Access) : Bool :=
  later.field?.isSome
    && read.instruction.index < later.instruction.index
    && later.instruction.index ≤ read.instruction.index + chainWindow
    && later.instruction.tableRegister == read.instruction.a

/-- The field access that completes a read, looking ahead up to the next read. -/
def completion? (read : Access) : List Access → Option Access
  | [] => none
  | access :: later =>
    if access.supersedes then none
    else if read.completedBy access then some access
    else read.completion? later

end Access

/-- The read that waits for its completion behind the given accesses: nothing after it takes its
place or completes it. -/
def waiting? : List Access → Option Access
  | [] => none
  | access :: later =>
    if access.awaited?.isSome
      && later.all (fun other => !other.supersedes && !access.completedBy other) then some access
    else waiting? later

/-- The read that a field access completes, looking back. -/
def completed? (earlier : List Access) (access : Access) : Option Access :=
  (waiting? earlier).filter (·.completedBy access)

/-- The reference to `name` that a read makes, given the field access that completes it. -/
def Access.reference (read : Access) (name : String) (completion? : Option Access) : Reference :=
  match completion?.bind (·.field?) with
  | some (key, write) =>
    { line := read.instruction.line, name := Text.member name key, write }
  | none => { line := read.instruction.line, name, write := false }

/-- The reference that an access adds between the accesses around it, if it adds one. -/
def referenceAt? (earlier : List Access) (access : Access) (later : List Access) :
    Option Reference :=
  match access.kind with
  | .read name => some (access.reference name (access.completion? later))
  | .require => some (access.reference "require" none)
  | .assign name => some { line := access.instruction.line, name, write := true }
  | .load _ | .unrelated => none
  | .field key write holder? =>
    match completed? earlier access with
    | none => holder?.map fun holder =>
        { line := access.instruction.line, name := Text.member holder key, write }
    | some read =>
      match read.kind with
      | .load name => some (read.reference name (some access))
      -- The reference of a read stands where the read is.
      | _ => none

/-- The references of accesses that follow given ones, in order. -/
def referencesAfter (earlier : List Access) : List Access → List Reference
  | [] => []
  | access :: later =>
    (referenceAt? earlier access later).toList ++ referencesAfter (earlier ++ [access]) later

/-- The references of the accesses of a function, in order. -/
def referencesOf (accesses : List Access) : List Reference :=
  referencesAfter [] accesses

/-! ## Whole units -/

/-- The references of functions one after the other. Known locals stay known. -/
def functionReferences (known : KnownLocals) : List FunctionListing → List Reference
  | [] => []
  | listing :: rest =>
    let around : Surroundings := ⟨known, listing.scope⟩
    referencesOf (around.accesses listing.instructions)
      ++ functionReferences (around.after listing.instructions).known rest

/-- The known locals before the code of a unit, and its functions: the local that the main chunk
returns is known from the start. -/
def prepare : List FunctionListing → KnownLocals × List FunctionListing
  | [] => (.empty, [])
  | main :: rest =>
    match main.returnedLocal? with
    | none => (.empty, main :: rest)
    | some index =>
      let around := Surroundings.register ⟨.empty, main.scope⟩ index
      (around.known, { main with scope := around.scope } :: rest)

/-- The references of all functions of a unit, in order of the listing. -/
def expectedReferences (functions : List FunctionListing) : List Reference :=
  functionReferences (prepare functions).1 (prepare functions).2

end LuaGlobals
