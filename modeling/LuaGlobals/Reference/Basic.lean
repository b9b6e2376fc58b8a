import LuaGlobals.Text.Dotted

/-! # References of a unit

What a listing tells about a unit: which names outside its own variables it touches, which
modules it requires, and in which way it is a module itself.

* `Reference` is one access to a name.
* `Requirement` is one call of `require` with a literal name.
* `ModuleRemark` says how the unit declares or returns a module.
* `ReferenceReport` holds all three.
-/

namespace LuaGlobals

/-- An access to a name outside the variables of a unit. -/
structure Reference where
  /-- The line of the access. -/
  line : Int
  /-- The qualified name, its components joined by dots. -/
  name : String
  /-- Whether the access assigns. -/
  write : Bool
deriving DecidableEq, Repr

/-- The first component of the name. -/
def Reference.root (ref : Reference) : String :=
  Text.root ref.name

/-- A call of `require` with a literal name. -/
structure Requirement where
  /-- The name of the module. -/
  moduleName : String
  /-- The line of the call. -/
  line : Int
  /-- The local that receives the module, if any. -/
  receiver : Option String
deriving DecidableEq, Repr

/-- How a unit is a module. -/
structure ModuleRemark where
  /-- Whether the unit calls `module`. -/
  declared : Bool
  /-- The line of the call. -/
  line : Int
  /-- Whether the call keeps the globals in sight with `package.seeall`. -/
  strict : Bool
  /-- The literal name passed to the call, if any. -/
  name : Option String
  /-- The local that the main chunk returns, if any. -/
  simpleModule : Option String
deriving DecidableEq, Repr

namespace ModuleRemark

/-- The remark on a unit that is no module. -/
def absent : ModuleRemark :=
  { declared := false, line := 0, strict := false, name := none, simpleModule := none }

/-- Whether a bare call of `module` replaces the environment of the unit. -/
def isOpen (remark : ModuleRemark) : Bool :=
  remark.declared && !remark.strict

/-- The returned local, when it has a name. -/
def exported? (remark : ModuleRemark) : Option String :=
  remark.simpleModule.filter (· != "")

/-- The root of the declared name, when there is one. -/
def declaredRoot? (remark : ModuleRemark) : Option String :=
  (remark.name.filter (· != "")).map Text.root

end ModuleRemark

/-- All that a listing tells about the references of a unit. -/
structure ReferenceReport where
  /-- The accesses, in order of the listing. -/
  references : List Reference
  /-- The requirements, in order of the listing. -/
  requirements : List Requirement
  /-- How the unit is a module. -/
  remark : ModuleRemark
deriving DecidableEq, Repr

namespace ReferenceReport

/-- The report on a unit that touches nothing. -/
def empty : ReferenceReport :=
  { references := [], requirements := [], remark := .absent }

/-- The named locals that receive required modules. -/
def aliases (report : ReferenceReport) : List String :=
  (report.requirements.filterMap (·.receiver)).filter (· != "")

end ReferenceReport

end LuaGlobals
