import LuaGlobals.Check.Diagnostic
import LuaGlobals.Check.Trace
import LuaGlobals.Module.Loader

/-! # Judging references

The policy compares the references of one unit with a whitelist.

* `ScopingOptions` are the options that widen the whitelist.
* `setup` binds what the unit may use beside the base whitelist: the exports of the modules that
  it requires, the members of the table that it returns, and the names that it defines.
* `judge` finds what is wrong with one reference.
* `evaluate` walks over the references in the order of their lines. Behind the line of a call of
  `module` the environment of the unit is another one.
-/

namespace LuaGlobals

open Whitelist

/-- The options that widen the whitelist of a unit. -/
structure ScopingOptions where
  /-- Every assignment is permitted and permits its name from there on. -/
  tolerant : Bool
  /-- The names that the unit defines are permitted in all of it. -/
  globalsWithinModule : Bool
  /-- The exports of required modules are permitted under their local names. -/
  loadRequires : Bool
deriving DecidableEq, Repr

/-- What became of a requirement: the exports of the module, or why there are none. -/
structure RequirementOutcome where
  /-- The requirement. -/
  requirement : Requirement
  /-- The exports of the module, or the reason why it could not be resolved. -/
  surface : Except String Entries
deriving Repr

/-- Asks a resolver for the exports of every module that a report requires. Without a resolver no
module is resolved. -/
def resolveRequirements (resolver? : Option (String → Except String Entries))
    (report : ReferenceReport) : List RequirementOutcome :=
  report.requirements.map fun requirement =>
    { requirement
      surface := match resolver? with
        | some resolver => resolver requirement.moduleName
        | none => .error "no module resolver configured" }

/-! ## Findings -/

/-- What is wrong with a reference. -/
inductive Finding where
  /-- It assigns a name of the whitelist. -/
  | redefinition
  /-- The root of its name is not known. -/
  | undefined
  /-- The root of its name is known, the member is not. -/
  | unknownField
deriving DecidableEq, Repr

/-- A name as messages show it. -/
def marked (name : String) : String :=
  "\x60" ++ name ++ "\x60"

namespace Finding

/-- How bad a finding is. -/
def severity : Finding → Severity
  | .redefinition | .undefined => .error
  | .unknownField => .warning

/-- The message for a finding on a reference. -/
def message (finding : Finding) (ref : Reference) : String :=
  match finding with
  | .redefinition => "redefining global " ++ marked ref.name
  | .undefined => "undefined " ++ (if ref.write then "set " else "get ") ++ marked ref.name
  | .unknownField => "unknown field " ++ marked ref.name

/-- A finding on a reference of a unit. -/
def diagnostic (finding : Finding) (unit : String) (ref : Reference) : Diagnostic :=
  { unit, line := ref.line, severity := finding.severity, message := finding.message ref
    name := some ref.name }

end Finding

/-- What is wrong with a reference, given what the whitelist says of its name. An assignment is
fine below a node that permits everything, and so is a new member of a known table. -/
def judge (resolution : Resolution) (ref : Reference) : Option Finding :=
  match resolution.node? with
  | some node => if ref.write && !node.isAny then some .redefinition else none
  | none =>
    if !resolution.rootResolved then some .undefined
    else if ref.write then none
    else some .unknownField

/-! ## Setting up -/

/-- The local names of a unit that are no globals: the aliases of required modules and the
returned table. -/
def localNames (report : ReferenceReport) : List String :=
  report.aliases ++ report.remark.exported?.toList

/-- The names that a unit defines: those that it assigns, and the root of its declared name,
except for the members of its local tables. -/
def definedNames (report : ReferenceReport) : List String :=
  let written := (report.references.filter (·.write)).map (·.name)
  (written ++ report.remark.declaredRoot?.toList).filter fun name =>
    !(localNames report).contains (Text.root name)

/-- The bindings of locals: the aliases of resolved modules, then the returned table. -/
def localBindings (options : ScopingOptions) (report : ReferenceReport)
    (outcomes : List RequirementOutcome) : Entries :=
  let aliased := if options.loadRequires then outcomes.filterMap fun outcome =>
      match outcome.surface, outcome.requirement.receiver.filter (· != "") with
      | .ok surface, some name => some (name, Node.table surface)
      | _, _ => none
    else []
  let returned := match report.remark.exported? with
    | some name => [(name, Node.table ((exportSurface report).getD []))]
    | none => []
  aliased ++ returned

/-- Whether the names of the unit are bound only where it declares itself a module. -/
def bindsLate (options : ScopingOptions) (remark : ModuleRemark) : Bool :=
  remark.declared && remark.strict && !options.tolerant

/-- The whitelist with the names that the unit defines. -/
def bindDefined (report : ReferenceReport) (working : ScopedWhitelist) : ScopedWhitelist :=
  working.bindAll (writtenBindings (definedNames report) working.entries)

/-- The whitelist at the start of a unit. -/
def setup (options : ScopingOptions) (base : Entries) (report : ReferenceReport)
    (outcomes : List RequirementOutcome) : ScopedWhitelist :=
  let working := (ScopedWhitelist.ofBase base).bindAll (localBindings options report outcomes)
  if options.globalsWithinModule && !bindsLate options report.remark then
    bindDefined report working
  else working

/-- The whitelist behind the line on which the unit declares itself a module. A bare declaration
leaves only the names of the unit. -/
def crossDeclaration (options : ScopingOptions) (report : ReferenceReport)
    (outcomes : List RequirementOutcome) (working : ScopedWhitelist) : ScopedWhitelist :=
  if report.remark.isOpen then
    working.rebuild (Keyed.putAll (writtenBindings (definedNames report) [])
      (localBindings options report outcomes))
  else if bindsLate options report.remark && options.globalsWithinModule then
    bindDefined report working
  else working

/-! ## Walking -/

/-- The state of the walk over the references of a unit. -/
structure PolicyState where
  /-- The whitelist. -/
  working : ScopedWhitelist
  /-- Whether the declaration of the module lies behind. -/
  crossed : Bool
  /-- The findings so far. -/
  found : List Diagnostic
deriving Repr

/-- The finding on a reference and the whitelist behind it. A tolerant policy permits every
assignment, and binds its root if that is new. -/
def checkReference (options : ScopingOptions) (working : ScopedWhitelist) (ref : Reference) :
    Option Finding × ScopedWhitelist :=
  let resolution := working.resolve ref.name
  if options.tolerant && ref.write then
    (none, if resolution.rootResolved then working else working.bind ref.root .any)
  else (judge resolution ref, working)

/-- Whether a reference lies behind the declaration of the module. -/
def liesBehind (options : ScopingOptions) (remark : ModuleRemark) (ref : Reference) : Bool :=
  remark.declared && !options.tolerant && remark.line < ref.line

/-- One step of the walk. References to the aliases in `skipped` are not judged. -/
def walkReference (options : ScopingOptions) (unit : String) (report : ReferenceReport)
    (outcomes : List RequirementOutcome) (skipped : List String) (state : PolicyState)
    (ref : Reference) : PolicyState :=
  -- The whitelist changes right before the first reference behind the declaration, also when
  -- that reference is not judged.
  let crossing := liesBehind options report.remark ref && !state.crossed
  let working :=
    if crossing then crossDeclaration options report outcomes state.working else state.working
  let crossed := state.crossed || crossing
  if skipped.contains ref.root then { state with working, crossed }
  else
    let (finding?, working) := checkReference options working ref
    let found := match finding? with
      | some finding => state.found ++ [finding.diagnostic unit ref]
      | none => state.found
    { working, crossed, found }

/-- The references in the order of their lines; those on one line keep their order. -/
def inLineOrder (references : List Reference) : List Reference :=
  references.mergeSort fun ref other => ref.line ≤ other.line

/-- The warning about a module that could not be resolved. -/
def requireWarning (unit : String) (requirement : Requirement) (reason : String) : Diagnostic :=
  { unit
    line := requirement.line
    severity := .warning
    message := "cannot resolve module " ++ marked requirement.moduleName ++ ": " ++ reason
    name := some requirement.moduleName }

/-- The message to the console about a module that could not be resolved. -/
def requireLog (unit : String) (requirement : Requirement) (reason : String) : LogRecord :=
  { level := .warning
    message := unit ++ ":" ++ toString requirement.line ++ ": cannot resolve module '"
      ++ requirement.moduleName ++ "': " ++ reason }

/-- The messages to the console about what became of a requirement. -/
def requireLogs (unit : String) (outcome : RequirementOutcome) : List LogRecord :=
  match outcome.surface with
  | .ok _ => []
  | .error reason => [requireLog unit outcome.requirement reason]

/-- The requirements that could not be resolved, with the reasons. -/
def unresolved (options : ScopingOptions) (outcomes : List RequirementOutcome) :
    List (Requirement × String) :=
  if options.loadRequires then outcomes.filterMap fun outcome =>
    match outcome.surface with
    | .ok _ => none
    | .error reason => some (outcome.requirement, reason)
  else []

/-- The result on a unit whose requirements were resolved as given, and the messages to the
console. -/
def evaluate (options : ScopingOptions) (base : Entries) (unit : String)
    (report : ReferenceReport) (outcomes : List RequirementOutcome) :
    UnitResult × List LogRecord :=
  let failed := unresolved options outcomes
  let warnings := failed.map fun (requirement, reason) => requireWarning unit requirement reason
  let logs := failed.map fun (requirement, reason) => requireLog unit requirement reason
  let skipped := if options.loadRequires then [] else report.aliases
  let start : PolicyState :=
    { working := setup options base report outcomes, crossed := false, found := [] }
  let final := (inLineOrder report.references).foldl
    (walkReference options unit report outcomes skipped) start
  (⟨unit, warnings ++ final.found⟩, logs)

end LuaGlobals
