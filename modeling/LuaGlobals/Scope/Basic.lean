/-! # Variables of a function

The virtual machine keeps locals in registers and reaches the variables of enclosing functions
through numbered upvalues. This module holds both tables of one function and the registry of
locals that a whole unit is known to keep modules in.

* `LocalSlot` is a local with the range of instructions during which it holds its register.
* `FunctionScope.localAt?` finds the local that holds a register at an instruction.
* `KnownLocals` is the registry, in order of first registration.
-/

namespace LuaGlobals

/-- A local variable and the range of instructions during which it holds its register. -/
structure LocalSlot where
  /-- The register. -/
  slot : Nat
  /-- The name in the source. -/
  name : String
  /-- The first instruction of the range. -/
  start : Nat
  /-- The last instruction of the range. -/
  stop : Nat
  /-- Whether the local is bound to a module. -/
  known : Bool
deriving DecidableEq, Repr

/-- Whether a local holds its register at an instruction. -/
def LocalSlot.covers (slot : LocalSlot) (position : Int) : Bool :=
  slot.start ≤ position && position ≤ slot.stop

/-- A variable of an enclosing function. -/
structure CapturedVariable where
  /-- The number of the upvalue. -/
  slot : Nat
  /-- The name in the source. -/
  name : String
deriving DecidableEq, Repr

/-! ## The tables of one function -/

/-- The locals and captured variables of one function. -/
structure FunctionScope where
  /-- The locals, in order of declaration. -/
  locals : List LocalSlot
  /-- The captured variables, in order of the listing. -/
  captured : List CapturedVariable
deriving DecidableEq, Repr

namespace FunctionScope

/-- Whether a local holds a given register at an instruction. -/
def holds (register position : Int) (slot : LocalSlot) : Bool :=
  slot.slot == register && slot.covers position

/-- The place in the table of the first local that holds a register at an instruction. -/
def localIndexAt? (scope : FunctionScope) (register : Option Int) (position : Int) : Option Nat :=
  register.bind fun register => scope.locals.findIdx? (holds register position)

/-- The first local that holds a register at an instruction. -/
def localAt? (scope : FunctionScope) (register : Option Int) (position : Int) : Option LocalSlot :=
  register.bind fun register => scope.locals.find? (holds register position)

/-- The first captured variable with a given number. -/
def capturedAt? (scope : FunctionScope) (upvalue : Option Int) : Option CapturedVariable :=
  upvalue.bind fun upvalue => scope.captured.find? fun captured => captured.slot == upvalue

/-- The scope with the local at a place of the table marked as bound to a module. -/
def markKnown (scope : FunctionScope) (index : Nat) : FunctionScope :=
  { scope with locals := scope.locals.modify index fun slot => { slot with known := true } }

end FunctionScope

/-! ## Locals known to hold modules -/

/-- The locals of a unit that are bound to modules, by name, in order of first registration. -/
structure KnownLocals where
  /-- The registered locals. -/
  slots : List LocalSlot
deriving DecidableEq, Repr

namespace KnownLocals

/-- The registry without any local. -/
def empty : KnownLocals :=
  ⟨[]⟩

/-- Puts a local in the place of the one with the same name, or at the end. -/
def insert (slot : LocalSlot) : List LocalSlot → List LocalSlot
  | [] => [slot]
  | other :: rest => if other.name = slot.name then slot :: rest else other :: insert slot rest

/-- Registers a local, which is thereby known. -/
def register (known : KnownLocals) (slot : LocalSlot) : KnownLocals :=
  ⟨insert { slot with known := true } known.slots⟩

/-- The registered local with a given name. -/
def lookup? (known : KnownLocals) (name : String) : Option LocalSlot :=
  known.slots.find? fun slot => slot.name == name

/-- Whether a local with a given name is registered. -/
def contains (known : KnownLocals) (name : String) : Bool :=
  (known.lookup? name).isSome

/-- The registered names, in order of first registration. -/
def names (known : KnownLocals) : List String :=
  known.slots.map (·.name)

/-- Registering a local adds its name at the end, or keeps the names if it is one of them. -/
theorem names_register (known : KnownLocals) (slot : LocalSlot) :
    (known.register slot).names =
      if slot.name ∈ known.names then known.names else known.names ++ [slot.name] := by
  obtain ⟨slots⟩ := known
  unfold register names
  dsimp only
  induction slots with
  | nil => simp [insert]
  | cons other rest ih =>
    by_cases h : other.name = slot.name
    · simp [insert, h]
    · simp only [insert, h, if_false, List.map_cons, List.mem_cons, Ne.symm h, false_or, ih]
      split <;> rfl

end KnownLocals

end LuaGlobals
