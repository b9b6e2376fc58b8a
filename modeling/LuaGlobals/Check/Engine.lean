import LuaGlobals.Check.Disassembler
import LuaGlobals.Config.Basic
import LuaGlobals.Files.Tree
import LuaGlobals.Module.Loader
import LuaGlobals.Reference.Resolver
import LuaGlobals.Text.Markup
import LuaGlobals.Whitelist.File

/-! # Checking units

The engine ties the passes together: it takes the listing of a unit, resolves its references and
judges them by the whitelist. A unit without a proper listing fails with one finding, and the batch
goes on with the next unit.

* `Engine` holds what a run needs.
* `Engine.checkListing`, `Engine.checkFile` and `Engine.checkFiles` check units. Each gives its
  result with the effects that lead to it; `Traced.on` tells what becomes of it on a host that
  refuses one of them.
-/

namespace LuaGlobals

open Whitelist

/-! ## The engine -/

/-- What a run needs. -/
structure Engine where
  /-- The options. -/
  config : AnalysisConfig
  /-- The whitelist of every unit. -/
  whitelist : Entries
  /-- The files. -/
  tree : FileTree
  /-- The result of running the compiler on a source file. -/
  compile : String → ProcessResult

namespace Engine

/-- The engine of a configuration, with the whitelist that the configuration describes. -/
def ofConfig (config : AnalysisConfig) (tree : FileTree) (compile : String → ProcessResult) :
    Except WhitelistError Engine := do
  let version := if config.builtinWhitelist then some config.luaVersion else none
  let whitelist ← buildWhitelist tree version config.whitelistFiles
  return { config, whitelist, tree, compile }

/-- The command that prints the listing of a source file. -/
def command (engine : Engine) (path : FilePath) : List String :=
  luacCommand engine.config.luac path.toString

/-- The listing of a source file. -/
def listing (engine : Engine) (path : FilePath) : Except DisassemblerError String :=
  disassemble engine.config.luac path.toString (engine.compile path.toString)

/-- The references of a source file. -/
def report (engine : Engine) (path : FilePath) : Except AnalysisError ReferenceReport := do
  let text ← (engine.listing path).mapError .disassembly
  (analyzeListing text).mapError .listing

/-- The references of a source file, with the command that it takes. -/
def analyzeFile (engine : Engine) (path : FilePath) :
    Traced (Except AnalysisError ReferenceReport) :=
  ⟨engine.report path, [.execute (engine.command path)]⟩

/-! ## Units -/

/-- A loader for the modules that units in a directory require. -/
def loader (engine : Engine) (directory : FilePath) : ModuleLoader :=
  { sources := .ofReports engine.tree.isFile engine.report
    luaPath := engine.config.luaPath
    searchDirs := [directory]
    whitelist := engine.whitelist }

/-- What it takes to find the exports of a module in a state of the loader: its source is looked
for, and the listing of that is printed. -/
def loading (engine : Engine) (loader : ModuleLoader) (moduleName : String) (state : LoaderState) :
    List Effect :=
  let probes := if loader.searches moduleName state then loader.looked moduleName else []
  let analyzed := (loader.resolve moduleName state).2.analyzed.drop state.analyzed.length
  probes.map .probe ++ analyzed.map fun path => .execute (engine.command path)

/-- What becomes of requirements, each in the state of the loader behind those before it. -/
def resolveEach (engine : Engine) (loader : ModuleLoader) :
    List Requirement → LoaderState → List (Traced RequirementOutcome)
  | [], _ => []
  | requirement :: rest, state =>
    let (result, after) := loader.resolve requirement.moduleName state
    let outcome : RequirementOutcome :=
      { requirement, surface := result.mapError ModuleError.message }
    ⟨outcome, engine.loading loader requirement.moduleName state⟩
      :: resolveEach engine loader rest after

/-- What becomes of the modules that a unit in a directory requires. -/
def resolveModules (engine : Engine) (directory : FilePath) (report : ReferenceReport) :
    List (Traced RequirementOutcome) :=
  if engine.config.scoping.loadRequires then
    engine.resolveEach (engine.loader directory) report.requirements .empty
  else []

/-- Resolves requirements one after the other, with messages about those that fail. -/
def tellOutcomes (unit : String) :
    List (Traced RequirementOutcome) → Traced (List RequirementOutcome)
  | [] => return []
  | resolving :: rest => do
    let outcome ← resolving
    Traced.perform ((requireLogs unit outcome).map .log)
    let outcomes ← tellOutcomes unit rest
    return outcome :: outcomes

/-- Judges the references of a unit in a directory. -/
def judgeUnit (engine : Engine) (unit : String) (directory : FilePath)
    (report : ReferenceReport) : Traced UnitResult := do
  let outcomes ← tellOutcomes unit (engine.resolveModules directory report)
  return (evaluate engine.config.scoping engine.whitelist unit report outcomes).1

/-- The result on a unit that cannot be analyzed. -/
def failed (unit message : String) : Traced UnitResult :=
  let diagnostic : Diagnostic := { unit, line := 0, severity := .error, message, name := none }
  let record : LogRecord :=
    { level := .error
      message := Text.escapeMarkupString unit ++ ": " ++ Text.escapeMarkupString message }
  ⟨(UnitResult.clean unit).add diagnostic, [.log record]⟩

/-- Checks a unit in a directory, given its listing. -/
def checkListingIn (engine : Engine) (unit listing : String) (directory : FilePath) :
    Traced UnitResult :=
  match analyzeListing listing with
  | .error cause => failed unit ("malformed listing: " ++ cause.message)
  | .ok report => engine.judgeUnit unit directory report

/-- Checks a unit, given its listing. Required modules are searched from the given directory, or
else from the working directory. -/
def checkListing (engine : Engine) (unit listing : String) (directory : Option FilePath) :
    Traced UnitResult :=
  engine.checkListingIn unit listing (directory.getD engine.tree.workingPath)

/-- Checks a source file. -/
def checkFile (engine : Engine) (path : FilePath) : Traced UnitResult := do
  Traced.perform [.execute (engine.command path)]
  let unit := path.toString
  match engine.listing path with
  | .error cause => failed unit ("cannot disassemble: " ++ cause.message)
  | .ok listing => engine.checkListingIn unit listing path.parent

/-- The results of checks that are added to a batch one after the other. -/
def collectResults (batch : BatchResult) : List (Traced UnitResult) → Traced BatchResult
  | [] => return batch
  | check :: rest => do
    let result ← check
    collectResults (batch.add result) rest

/-- Checks source files in order. -/
def checkFiles (engine : Engine) (paths : List FilePath) : Traced BatchResult :=
  collectResults .empty (paths.map engine.checkFile)

end Engine

/-- Checks one source file against the standard globals, with the given settings. -/
def checkSource (tree : FileTree) (compile : String → ProcessResult) (path : FilePath)
    (config : AnalysisConfig) : Except WhitelistError (Traced UnitResult) := do
  let engine ← Engine.ofConfig config tree compile
  return engine.checkFile path

end LuaGlobals
