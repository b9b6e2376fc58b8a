import LuaGlobals.Keyed

/-! # Results of a check

* `Diagnostic` is one finding.
* `UnitResult` holds the findings on one unit; it succeeds when none of them is an error.
* `BatchResult` holds the results of several units, one for each name, in order of their first
  check.
-/

namespace LuaGlobals

/-- How bad a finding is. -/
inductive Severity where
  /-- The unit fails. -/
  | error
  /-- The unit may still succeed. -/
  | warning
deriving DecidableEq, Repr

/-- The word that names a severity. -/
def Severity.label : Severity → String
  | .error => "error"
  | .warning => "warning"

/-- One finding in a unit. -/
structure Diagnostic where
  /-- The unit. -/
  unit : String
  /-- The line, zero when the finding belongs to none. -/
  line : Int
  /-- How bad it is. -/
  severity : Severity
  /-- What was found. -/
  message : String
  /-- The qualified name that it is about, if any. -/
  name : Option String
deriving DecidableEq, Repr

namespace Diagnostic

/-- Whether a finding makes its unit fail. -/
def isError (diagnostic : Diagnostic) : Bool :=
  diagnostic.severity == .error

/-- A finding on one line of text: unit, line, the word for a warning, and the message. -/
def format (diagnostic : Diagnostic) : String :=
  let mark := if diagnostic.isError then "" else diagnostic.severity.label ++ ": "
  diagnostic.unit ++ ":" ++ toString diagnostic.line ++ ": " ++ mark ++ diagnostic.message

end Diagnostic

/-- The findings on one unit. -/
structure UnitResult where
  /-- The unit. -/
  unit : String
  /-- The findings, in order. -/
  diagnostics : List Diagnostic
deriving DecidableEq, Repr

namespace UnitResult

/-- A unit without findings. -/
def clean (unit : String) : UnitResult :=
  ⟨unit, []⟩

/-- Adds a finding. -/
def add (result : UnitResult) (diagnostic : Diagnostic) : UnitResult :=
  { result with diagnostics := result.diagnostics ++ [diagnostic] }

/-- The findings that are errors. -/
def errors (result : UnitResult) : List Diagnostic :=
  result.diagnostics.filter (·.isError)

/-- The findings that are warnings. -/
def warnings (result : UnitResult) : List Diagnostic :=
  result.diagnostics.filter (!·.isError)

/-- Whether no finding is an error. -/
def success (result : UnitResult) : Bool :=
  result.diagnostics.all (!·.isError)

end UnitResult

/-- The results of the units of a run. -/
structure BatchResult where
  /-- The results by the names of their units. -/
  units : List (String × UnitResult)
deriving DecidableEq, Repr

namespace BatchResult

/-- The run without units. -/
def empty : BatchResult :=
  ⟨[]⟩

/-- Adds the result of a unit, in the place of an earlier result of the same unit. -/
def add (batch : BatchResult) (result : UnitResult) : BatchResult :=
  ⟨Keyed.put result.unit result batch.units⟩

/-- The results, in order. -/
def results (batch : BatchResult) : List UnitResult :=
  batch.units.map Prod.snd

/-- Whether every unit succeeds. -/
def success (batch : BatchResult) : Bool :=
  batch.results.all (·.success)

/-- The findings on all units, in order. -/
def diagnostics (batch : BatchResult) : List Diagnostic :=
  batch.results.flatMap (·.diagnostics)

end BatchResult

end LuaGlobals
