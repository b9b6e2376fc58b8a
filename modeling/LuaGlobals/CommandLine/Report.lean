import LuaGlobals.Check.Diagnostic
import LuaGlobals.Check.Trace
import LuaGlobals.Json.Writer
import LuaGlobals.Reference.Index
import LuaGlobals.Text.Markup

/-! # Reports of commands

* `batchTable?`, `summaryLine` and `indexTable` are what commands print to the console.
* `batchJson` and `indexJson` are the values that commands print as JSON.
-/

namespace LuaGlobals.CommandLine

/-! ## Findings -/

/-- A finding as a value. -/
def diagnosticJson (diagnostic : Diagnostic) : Json.Value :=
  .object [("unit", .string diagnostic.unit), ("line", .ofInt diagnostic.line),
    ("severity", .string diagnostic.severity.label), ("message", .string diagnostic.message),
    ("name", match diagnostic.name with
      | some name => .string name
      | none => .null)]

/-- The result on a unit as a value. -/
def unitJson (result : UnitResult) : Json.Value :=
  .object [("unit", .string result.unit), ("success", .bool result.success),
    ("diagnostics", .array (result.diagnostics.map diagnosticJson))]

/-- The results of a run as a value. -/
def batchJson (batch : BatchResult) : Json.Value :=
  .object [("success", .bool batch.success),
    ("units", .object (batch.units.map fun (name, result) => (name, unitJson result)))]

/-- A severity between tags that colour it. -/
def severityMarkup (severity : Severity) : String :=
  "[" ++ severity.label ++ "]" ++ severity.label ++ "[/" ++ severity.label ++ "]"

/-- The cells for a finding. -/
def diagnosticRow (diagnostic : Diagnostic) : List String :=
  [Text.escapeMarkupString diagnostic.unit, toString diagnostic.line,
    severityMarkup diagnostic.severity, Text.escapeMarkupString diagnostic.message]

/-- The table of all findings of a run, when there are any. -/
def batchTable? (batch : BatchResult) : Option Printed :=
  if batch.diagnostics = [] then none
  else some (.table "Global Access Report" ["Unit", "Line", "Severity", "Message"]
    (batch.diagnostics.map diagnosticRow))

/-- The units of a run that fail. -/
def failedUnits (batch : BatchResult) : List UnitResult :=
  batch.results.filter (!·.success)

/-- The line that sums up a run in which units fail. -/
def summaryLine (batch : BatchResult) : String :=
  let failed := (failedUnits batch).length
  "\n[bold]Summary:[/bold] " ++ toString (batch.units.length - failed) ++ " passed, "
    ++ toString failed ++ " failed."

/-! ## Indexes -/

/-- The indexes of several units as a value. -/
def indexJson (indexes : List (String × LineIndex)) : Json.Value :=
  .object (indexes.map fun (unit, index) =>
    (unit, .object (index.map fun (name, lines) => (name, .array (lines.map Json.Value.ofInt)))))

/-- The cells for an entry of the index of a unit. -/
def indexRow (unit : String) (entry : String × List Int) : List String :=
  [Text.escapeMarkupString unit, Text.escapeMarkupString entry.1,
    ", ".intercalate (entry.2.map toString)]

/-- The table of the indexes of several units. -/
def indexTable (title column : String) (indexes : List (String × LineIndex)) : Printed :=
  .table title ["Unit", column, "Lines"]
    (indexes.flatMap fun (unit, index) => index.map (indexRow unit))

end LuaGlobals.CommandLine
