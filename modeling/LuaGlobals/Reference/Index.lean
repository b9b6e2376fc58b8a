import LuaGlobals.Keyed
import LuaGlobals.Reference.Basic

/-! # Indexes of a report

The lines of names are gathered in a table, one reference after the other, and put in order at the
end.

* `crossReference` maps each name to the lines on which it is accessed.
* `writeReference` does so for assignments alone.
* `dependencies` maps each required module to the lines on which it is required.
-/

namespace LuaGlobals

/-- Rows of names with lines. -/
abbrev LineIndex := List (String × List Int)

/-- The lines that stand under a name. -/
def linesUnder (index : LineIndex) (name : String) : List Int :=
  (Keyed.lookup? name index).getD []

/-- Notes a line under a name, behind the lines that are there, unless it is one of them. -/
def noteLine (index : LineIndex) (name : String) (line : Int) : LineIndex :=
  let lines := linesUnder index name
  Keyed.put name (if line ∈ lines then lines else lines ++ [line]) index

/-- Notes the line of a reference, or only that of an assignment. -/
def noteReference (writesOnly : Bool) (index : LineIndex) (ref : Reference) : LineIndex :=
  if writesOnly && !ref.write then index else noteLine index ref.name ref.line

/-- The names of references in the order of their code points, each with its lines in ascending
order. -/
def indexReferences (writesOnly : Bool) (references : List Reference) : LineIndex :=
  let hits := references.foldl (noteReference writesOnly) []
  ((Keyed.keys hits).mergeSort (· ≤ ·)).map fun name =>
    (name, (linesUnder hits name).mergeSort (· ≤ ·))

/-- Each accessed name with its lines, in the order of the names. -/
def crossReference (report : ReferenceReport) : LineIndex :=
  indexReferences false report.references

/-- Each assigned name with the lines of its assignments, in the order of the names. -/
def writeReference (report : ReferenceReport) : LineIndex :=
  indexReferences true report.references

/-- Each required module with the lines on which it is required, in the order of the first
requirement. -/
def dependencies (report : ReferenceReport) : LineIndex :=
  let hits := report.requirements.foldl
    (fun index requirement => noteLine index requirement.moduleName requirement.line) []
  hits.map fun (name, lines) => (name, lines.mergeSort (· ≤ ·))

end LuaGlobals
