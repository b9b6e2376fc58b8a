import LuaGlobals.Check.Policy
import LuaGlobals.Config.Setting
import LuaGlobals.Files.Path

/-! # The configuration of a run

* `AnalysisConfig` holds the options of a run.
* `AnalysisConfig.ofSettings` validates settings; what is not set has its default.
* `Diagnostic.ofSettings` validates the fields of a finding.
-/

namespace LuaGlobals

/-- The options of a run. -/
structure AnalysisConfig where
  /-- The options that widen the whitelist. -/
  scoping : ScopingOptions
  /-- The version of Lua whose standard globals are permitted. -/
  luaVersion : String
  /-- Whether the standard globals are permitted at all. -/
  builtinWhitelist : Bool
  /-- Further whitelists, in order. -/
  whitelistFiles : List FilePath
  /-- The compiler that prints listings. -/
  luac : String
  /-- The templates of the search path of modules. -/
  luaPath : List String
deriving DecidableEq, Repr

namespace AnalysisConfig

/-- The configuration in which nothing is set. -/
def standard : AnalysisConfig :=
  { scoping := { tolerant := false, globalsWithinModule := false, loadRequires := false }
    luaVersion := "5.1"
    builtinWhitelist := true
    whitelistFiles := []
    luac := "luac"
    luaPath := ["?.lua", "?/init.lua"] }

/-- The value of a field: its default when it is not set, else its setting if that is valid. -/
def fieldOr {α : Type} (settings : List (String × Setting)) (field : String) (default : α)
    (read : String → Setting → Validated α) : Validated α :=
  match Keyed.lookup? field settings with
  | none => .ok default
  | some setting => read field setting

/-- The configuration with the given settings, or all errors in them in the order of the
fields. Settings of other names do not matter. -/
def ofSettings (settings : List (String × Setting)) : Validated AnalysisConfig :=
  let flag (field : String) (default : Bool) := fieldOr settings field default Setting.asFlag
  let build (tolerant globalsWithinModule loadRequires : Bool) (luaVersion : String)
      (builtinWhitelist : Bool) (whitelistFiles : List FilePath) (luac : String)
      (luaPath : List String) : AnalysisConfig :=
    { scoping := { tolerant, globalsWithinModule, loadRequires }
      luaVersion, builtinWhitelist, whitelistFiles, luac, luaPath }
  let result : Validated _ := .apply (.ok build) (flag "tolerant" standard.scoping.tolerant)
  let result :=
    result.apply (flag "globals_within_module" standard.scoping.globalsWithinModule)
  let result := result.apply (flag "load_requires" standard.scoping.loadRequires)
  let result :=
    result.apply (fieldOr settings "lua_version" standard.luaVersion Setting.asVersion)
  let result := result.apply (flag "builtin_whitelist" standard.builtinWhitelist)
  let result :=
    result.apply (fieldOr settings "whitelist_files" standard.whitelistFiles Setting.asPaths)
  let result :=
    result.apply (fieldOr settings "luac" standard.luac fun field => Setting.asText [field])
  result.apply (fieldOr settings "lua_path" standard.luaPath Setting.asTexts)

end AnalysisConfig

/-- A setting as a severity. -/
def Setting.asSeverity (field : String) : Setting → Validated Severity
  | .text "error" => .ok .error
  | .text "warning" => .ok .warning
  | _ => .fail [field] .notAChoice

/-- A setting as a text that may be absent. -/
def Setting.asOptionalText (field : String) : Setting → Validated (Option String)
  | .null => .ok none
  | setting => (setting.asText [field]).map some

/-- A finding in a unit with the given settings, or all errors in them in the order of the
fields. Only the message must be set. -/
def Diagnostic.ofSettings (unit : String) (settings : List (String × Setting)) :
    Validated Diagnostic :=
  let message : Validated String :=
    match Keyed.lookup? "message" settings with
    | none => .fail ["message"] .missing
    | some setting => setting.asText ["message"]
  let build (line : Int) (severity : Severity) (message : String) (name : Option String) :
      Diagnostic :=
    { unit, line, severity, message, name }
  let result : Validated _ :=
    .apply (.ok build) (AnalysisConfig.fieldOr settings "line" 0 Setting.asLine)
  let result :=
    result.apply (AnalysisConfig.fieldOr settings "severity" .error Setting.asSeverity)
  let result := result.apply message
  result.apply (AnalysisConfig.fieldOr settings "name" none Setting.asOptionalText)

end LuaGlobals
