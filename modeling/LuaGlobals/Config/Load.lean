import LuaGlobals.Config.Basic
import LuaGlobals.Files.Tree
import LuaGlobals.Toml.Document

/-! # Loading the configuration of a project

A project keeps its options in the table `tool.lglob` of the file `pyproject.toml`, which is
searched from a directory upwards. The nearest file counts, also when it says nothing or cannot be
read. Options of the command line come before those of the file.

* `findProject` finds the file.
* `AnalysisConfig.load` builds the configuration.
-/

namespace LuaGlobals

/-- Why there is no configuration. -/
inductive ConfigError where
  /-- Some fields have invalid values. -/
  | invalid (errors : List FieldError)
  /-- A value that should list texts lists nothing, or other values. -/
  | notTexts
  /-- A value that should be a table is none. -/
  | notTable
deriving DecidableEq, Repr

/-- The options of the command line. -/
structure ConfigOverrides where
  /-- Options that replace those of the project, by field. -/
  settings : List (String × Setting)
  /-- Whitelists that follow those of the project. -/
  whitelistFiles : List FilePath

mutual

/-- A value of a document as a setting. -/
def Toml.Value.toSetting : Toml.Value → Setting
  | .bool value => .flag value
  | .integer value => .integer value
  | .float value => .float value
  | .string value => .text value
  | .moment => .moment
  | .array values => .items (Toml.toSettings values)
  | .table entries => .table (Toml.toTable entries)

/-- Values of a document as settings. -/
def Toml.toSettings : List Toml.Value → List Setting
  | [] => []
  | value :: rest => value.toSetting :: Toml.toSettings rest

/-- Members of a table as settings. -/
def Toml.toTable : List (String × Toml.Value) → List (String × Setting)
  | [] => []
  | (key, value) :: rest => (key, value.toSetting) :: Toml.toTable rest

end

/-! ## The project file -/

/-- The name of the project file. -/
def projectFileName : String := "pyproject.toml"

/-- The nearest project file at or above a directory: its directory and its text. -/
def findProject (tree : FileTree) (start : FilePath) : Option (FilePath × String) :=
  (tree.normalize start).selfAndParents.findSome? fun directory =>
    match tree.read (directory.join (.ofString projectFileName)) with
    | .ok text => some (directory, text)
    | .error _ => none

/-- The table under a key, empty when the key is not there. -/
def subtable? (key : String) (table : Toml.Entries) : Except ConfigError Toml.Entries :=
  match Keyed.lookup? key table with
  | none => .ok []
  | some (.table entries) => .ok entries
  | some _ => .error .notTable

/-- The options of a project, with the directory of its file. A file that is no document counts
as none. -/
def projectOptions (tree : FileTree) (start : FilePath) :
    Except ConfigError (Toml.Entries × Option FilePath) :=
  match findProject tree start with
  -- Without a document there is no directory either: whitelists stay as they are spelled.
  | none => .ok ([], none)
  | some (directory, text) =>
    match Toml.read? text.toList with
    | none => .ok ([], none)
    | some root => do
      let tool ← subtable? "tool" root
      let options ← subtable? "lglob" tool
      return (options, some directory)

/-! ## The configuration -/

/-- The values that a value lists: the items of an array, the keys of a table, the characters of
a text. -/
def listedValues (value : Toml.Value) : Except ConfigError (List Setting) :=
  match value with
  | .array values => .ok (Toml.toSettings values)
  | .table entries => .ok (entries.map fun entry => .text entry.1)
  | .string text => .ok (text.toList.map fun c => .text (String.ofList [c]))
  | _ => .error .notTexts

/-- The path that a listed value spells. -/
def listedPath (setting : Setting) : Except ConfigError FilePath :=
  match setting with
  | .text value => .ok (.ofString value)
  | _ => .error .notTexts

/-- The whitelists that the options of a project list; relative paths start at the directory of
its file. -/
def projectWhitelists (tree : FileTree) (options : Toml.Entries) (directory : Option FilePath) :
    Except ConfigError (List FilePath) := do
  let values ← match Keyed.lookup? "whitelist_files" options with
    | none => .ok []
    | some value => listedValues value
  let paths ← values.mapM listedPath
  return match directory with
    | some directory => paths.map fun path => tree.normalize (directory.join path)
    | none => paths

/-- The fields that the command line may replace. -/
def replaceableFields : List String :=
  ["tolerant", "globals_within_module", "load_requires", "lua_version", "luac"]

/-- The setting of a field, first of the command line, then of the project. -/
def pick? (overrides : List (String × Setting)) (options : Toml.Entries) (field : String) :
    Option (String × Setting) :=
  let project := (Keyed.lookup? field options).map Toml.Value.toSetting
  ((Keyed.lookup? field overrides).or project).map fun setting => (field, setting)

/-- The configuration of a run that looks for its project from a path upwards. -/
def AnalysisConfig.load (tree : FileTree) (start : FilePath) (overrides : ConfigOverrides) :
    Except ConfigError AnalysisConfig := do
  let (options, directory) ← projectOptions tree start
  let whitelists ← projectWhitelists tree options directory
  let luaPath ← match Keyed.lookup? "lua_path" options with
    | none => .ok []
    | some value => (listedValues value).map fun values => [("lua_path", Setting.items values)]
  let settings := replaceableFields.filterMap (pick? overrides.settings options)
    ++ (pick? [] options "builtin_whitelist").toList
    ++ [("whitelist_files", .items ((whitelists ++ overrides.whitelistFiles).map .path))]
    ++ luaPath
  (AnalysisConfig.ofSettings settings).mapError .invalid

end LuaGlobals
