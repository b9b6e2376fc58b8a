import LuaGlobals.Check.Engine
import LuaGlobals.CommandLine.Command
import LuaGlobals.CommandLine.Report
import LuaGlobals.Config.Load
import LuaGlobals.Reference.Index
import LuaGlobals.Text.Lines

/-! # Running commands

* `World` is what a command sees: the files and the compiler.
* `Outcome` is the exit code of a command line, with all that it does outside.
* `run` runs a command line.
-/

namespace LuaGlobals.CommandLine

/-- What a command sees. -/
structure World where
  /-- The files. -/
  tree : FileTree
  /-- The result of running the compiler on a source file. -/
  compile : String → ProcessResult

/-- Why a command breaks off. -/
inductive Failure where
  /-- The configuration is wrong. -/
  | config (cause : ConfigError)
  /-- A whitelist cannot be loaded. -/
  | whitelist (cause : Whitelist.WhitelistError)
  /-- A listing cannot be read. -/
  | listing (cause : FileError)
deriving DecidableEq, Repr

/-- The end of a command line, with the effects that lead to it when none is refused. -/
abbrev Outcome := Traced (Except Failure Nat)

/-- The exit code, unless the command breaks off. -/
def Outcome.exit (outcome : Outcome) : Except Failure Nat :=
  outcome.value

/-- The exit code of a command that finds all well, or not. -/
def exitCode (success : Bool) : Nat :=
  if success then 0 else 1

/-- The listing in a file, with all line breaks as line feeds. -/
def readListing (tree : FileTree) (path : FilePath) : Except FileError String :=
  (tree.read path).map fun text => String.ofList (Text.unifyLineBreaks text.toList)

/-- The files that a command looks at. -/
def collectFiles (tree : FileTree) (command : Command) : List FilePath :=
  let pattern := if command.settings.has .listing then "*" else "*.lua"
  tree.collectSources (.ofString pattern) (command.paths.map .ofString)

/-! ## Checking -/

/-- The check of the listing in a file, unless there is no such file. -/
def checkListingFile (engine : Engine) (path : FilePath) : Except FileError (Traced UnitResult) :=
  (readListing engine.tree path).map fun listing => do
    Traced.perform [.read path]
    engine.checkListing path.toString listing (some path.parent)

/-- The checks of the listings in files, unless one of these is not there. -/
def checkListings (engine : Engine) : List FilePath → Except FileError (List (Traced UnitResult))
  | [] => .ok []
  | path :: rest =>
    (checkListingFile engine path).bind fun check =>
      (checkListings engine rest).map (check :: ·)

/-- Checks the files of a command. -/
def checkUnits (engine : Engine) (command : Command) (files : List FilePath) :
    Except FileError (Traced BatchResult) :=
  if command.settings.has .listing then
    (checkListings engine files).map (Engine.collectResults .empty)
  else .ok (engine.checkFiles files)

/-- The message that announces a check. -/
def announcement (config : AnalysisConfig) (count : Nat) : LogRecord :=
  { level := .info
    message := "Checking " ++ toString count ++ " unit(s) against the Lua " ++ config.luaVersion
      ++ " globals..." }

/-- The message that all units passed. -/
def allPassed (count : Nat) : LogRecord :=
  { level := .success, message := "All " ++ toString count ++ " unit(s) passed." }

/-- What a check shows at its end. -/
def closing (json : Bool) (batch : BatchResult) : List Effect :=
  if json then [.output (Json.write (batchJson batch) ++ "\n")]
  else
    let last := if (failedUnits batch).isEmpty then .log (allPassed batch.units.length)
      else .print (.text (summaryLine batch))
    (batchTable? batch).toList.map .print ++ [last]

/-- Runs a batch, announced unless JSON is printed, and shows what it gave. -/
def showBatch (json : Bool) (announced : LogRecord) (batch : Traced BatchResult) : Traced Nat := do
  Traced.perform (if json then [] else [.log announced])
  let result ← batch
  Traced.perform (closing json result)
  return exitCode result.success

/-- The options of a check that come before those of the project. -/
def checkOverrides (settings : Settings) : ConfigOverrides :=
  let flag (key : OptionKey) (field : String) : List (String × Setting) :=
    if settings.has key then [(field, .flag true)] else []
  let value (key : OptionKey) (field : String) : List (String × Setting) :=
    (settings.last? key).toList.map fun text => (field, .text text)
  { settings := flag .tolerant "tolerant" ++ flag .globalsInModule "globals_within_module"
      ++ flag .loadRequires "load_requires" ++ value .luaVersion "lua_version"
      ++ value .luac "luac"
    whitelistFiles := (settings.values .whitelist).map .ofString }

/-- The directory from which a check looks for its project: the first path or its parent. -/
def projectStart (tree : FileTree) (paths : List FilePath) : FilePath :=
  match paths with
  | [] => tree.workingPath
  | first :: _ => if tree.isDirectory first then first else first.parent

/-- The message about a path that leads nowhere. -/
def pathNotFound (path : FilePath) : LogRecord :=
  { level := .error
    message := "Path not found: [path]" ++ Text.escapeMarkupString path.toString ++ "[/path]" }

/-- The batch of a check whose paths all lead somewhere, with the message that announces it. -/
def announcedBatch (world : World) (command : Command) :
    Except Failure (LogRecord × Traced BatchResult) := do
  let start := projectStart world.tree (command.paths.map .ofString)
  let config ←
    (AnalysisConfig.load world.tree start (checkOverrides command.settings)).mapError .config
  let engine ← (Engine.ofConfig config world.tree world.compile).mapError .whitelist
  let files := collectFiles world.tree command
  let batch ← (checkUnits engine command files).mapError .listing
  return (announcement config files.length, batch)

/-- The paths of a command that lead nowhere. -/
def missingPaths (world : World) (command : Command) : List FilePath :=
  (command.paths.map FilePath.ofString).filter fun path => !world.tree.exists? path

/-- Runs a check. -/
def runCheck (world : World) (command : Command) : Outcome :=
  if missingPaths world command = [] then
    match announcedBatch world command with
    | .error failure => return .error failure
    | .ok (announced, batch) =>
      return .ok (← showBatch (command.settings.has .json) announced batch)
  else do
    Traced.perform ((missingPaths world command).map fun path => .log (pathNotFound path))
    return .ok 1

/-! ## Listing names and modules -/

/-- The references of a unit, unless its listing cannot be read. -/
def analyzeUnit (engine : Engine) (command : Command) (path : FilePath) :
    Except FileError (Traced (Except AnalysisError ReferenceReport)) :=
  if command.settings.has .listing then
    (readListing engine.tree path).map fun text =>
      ⟨(analyzeListing text).mapError .listing, [.read path]⟩
  else .ok (engine.analyzeFile path)

/-- The reports on several units, by their names. -/
abbrev Reports := List (String × ReferenceReport)

/-- The message about a unit that cannot be analyzed. -/
def unitSkipped (unit : String) (cause : AnalysisError) : LogRecord :=
  { level := .error
    message := Text.escapeMarkupString unit ++ ": " ++ Text.escapeMarkupString cause.message }

/-- The reports with that on one unit; a unit that cannot be analyzed is skipped. -/
def addReport (reports : Reports) (path : FilePath)
    (result : Except AnalysisError ReferenceReport) : Traced Reports :=
  match result with
  | .ok report => return Keyed.put path.toString report reports
  | .error cause => ⟨reports, [.log (unitSkipped path.toString cause)]⟩

/-- Analyzes units in order, after what was traced so far. A listing that cannot be read breaks
this off. -/
def analyzeUnits (engine : Engine) (command : Command) (traced : Traced Reports) :
    List FilePath → Except FileError Unit × Traced Reports
  | [] => (.ok (), traced)
  | path :: rest =>
    match analyzeUnit engine command path with
    | .error cause => (.error cause, traced)
    | .ok analysis =>
      let traced := do
        let reports ← traced
        let result ← analysis
        addReport reports path result
      analyzeUnits engine command traced rest

/-- The title of the table of a command, its second column, and the index that it shows. -/
def indexOf : CommandKind → String × String × (ReferenceReport → LineIndex)
  | .deps => ("Required Modules", "Module", dependencies)
  | _ => ("Global Cross Reference", "Name", crossReference)

/-- What a command shows that lists names or modules. -/
def showIndex (command : Command) (reports : Reports) : Effect :=
  let (title, column, index) := indexOf command.kind
  let indexes := reports.map fun (unit, report) => (unit, index report)
  if command.settings.has .json then .output (Json.write (indexJson indexes) ++ "\n")
  else .print (indexTable title column indexes)

/-- Runs a command that lists names or modules. -/
def runIndex (world : World) (command : Command) : Outcome :=
  let luac := (command.settings.last? .luac).toList.map fun text => ("luac", Setting.text text)
  match AnalysisConfig.load world.tree world.tree.workingPath ⟨luac, []⟩ with
  | .error cause => return .error (.config cause)
  | .ok config =>
    let engine : Engine :=
      { config, whitelist := [], tree := world.tree, compile := world.compile }
    let files := collectFiles world.tree command
    -- What was done before a listing that is not there stays done.
    match analyzeUnits engine command (pure []) files with
    | (.error cause, reports) => do
      let _ ← reports
      return .error (.listing cause)
    | (.ok (), reports) => do
      let reports ← reports
      Traced.perform [showIndex command reports]
      return .ok (exitCode (reports.length == files.length))

/-! ## Command lines -/

/-- The text that names the program and its version. -/
def versionText : String := "lglob 0.1.0\n"

/-- Runs a command. -/
def runCommand (world : World) (command : Command) : Outcome :=
  match command.kind with
  | .check => runCheck world command
  | .xref | .deps => runIndex world command

/-- Runs a command line. -/
def run (world : World) (arguments : List String) : Outcome :=
  match Command.ofArguments arguments with
  | .ok command => runCommand world command
  | .error .usage => return .ok 2
  | .error .help => return .ok 0
  | .error .version => do
    Traced.perform [.output versionText]
    return .ok 0

end LuaGlobals.CommandLine
