import LuaGlobals.Config.Load
import LuaGlobals.Proofs.Config.Valid
import LuaGlobals.Proofs.Files.Collected
import LuaGlobals.Proofs.Keyed

/-! # The settings that are gathered for a configuration

Before settings are validated, they are gathered from the command line and from the options of a
project. The two lists of a project become rows of settings on the way, whatever kind of value it
gives for them.

* `Toml.Value.ListsTexts` and `listedValues_eq_map_text_iff`: the texts that a value lists.
* `usedSetting?` is the setting that counts for a field.
* `lookup?_gathered`: the setting that stands under a field among the gathered ones.
* **`load_eq_ok_iff_gathered`**: a configuration is loaded by gathering settings and validating
  them, and `ofSettings_gathered_eq_ok_iff` and `exists_gathered_iff` say what is valid. -/

namespace LuaGlobals

/-! ## The lists of a project -/

namespace Toml.Value

/-- The texts that a value lists: an array its items, a table its keys and a text its
characters. -/
inductive ListsTexts : Toml.Value → List String → Prop where
  /-- An array of texts lists them. -/
  | array (texts : List String) : ListsTexts (.array (texts.map .string)) texts
  /-- A table lists its keys, whatever stands under them. -/
  | table (entries : List (String × Toml.Value)) : ListsTexts (.table entries) (Keyed.keys entries)
  /-- A text lists its characters, each as a text. -/
  | string (text : String) :
    ListsTexts (.string text) (text.toList.map fun c => String.ofList [c])

/-- A value is the array of the given texts. -/
def IsTextArray (value : Toml.Value) (texts : List String) : Prop :=
  value = .array (texts.map .string)

/-- An array of texts lists them. -/
theorem IsTextArray.listsTexts {value : Toml.Value} {texts : List String}
    (h : value.IsTextArray texts) : value.ListsTexts texts :=
  h ▸ .array texts

/-- An array lists texts only if it is the array of them. -/
theorem ListsTexts.isTextArray {values : List Toml.Value} {texts : List String}
    (h : ListsTexts (.array values) texts) : IsTextArray (.array values) texts := by
  cases h
  rfl

end Toml.Value

/-- A setting is a text when the value that it comes from is. -/
theorem toSetting_eq_text_iff {value : Toml.Value} {text : String} :
    value.toSetting = .text text ↔ value = .string text := by
  cases value <;> simp [Toml.Value.toSetting]

/-- Settings are texts when the values that they come from are. -/
theorem toSettings_eq_map_text_iff {values : List Toml.Value} {texts : List String} :
    Toml.toSettings values = texts.map .text ↔ values = texts.map .string := by
  induction values generalizing texts with
  | nil => cases texts <;> simp [Toml.toSettings]
  | cons value rest ih =>
      cases texts with
      | nil => simp [Toml.toSettings]
      | cons text texts =>
          rw [Toml.toSettings, List.map_cons, List.map_cons, List.cons.injEq, List.cons.injEq,
            toSetting_eq_text_iff, ih]

/-- The values listed are texts when the value lists these texts. -/
theorem listedValues_eq_map_text_iff {value : Toml.Value} {texts : List String} :
    listedValues value = .ok (texts.map .text) ↔ value.ListsTexts texts := by
  have hinjective : Function.Injective Setting.text := fun _ _ => Setting.text.inj
  constructor
  · intro h
    cases value with
    | array values =>
        obtain rfl := toSettings_eq_map_text_iff.mp (Except.ok.inj h)
        exact .array texts
    | table entries =>
        have hkeys : (Keyed.keys entries).map Setting.text = texts.map .text := by
          rw [Keyed.keys, List.map_map]
          exact Except.ok.inj h
        rw [← hinjective.list_map hkeys]
        exact .table entries
    | string text =>
        have hchars : (text.toList.map fun c => String.ofList [c]).map Setting.text
            = texts.map .text := by
          rw [List.map_map]
          exact Except.ok.inj h
        rw [← hinjective.list_map hchars]
        exact .string text
    | _ => simp [listedValues] at h
  · rintro (_ | _ | _)
    · exact congrArg Except.ok (toSettings_eq_map_text_iff.mpr rfl)
    · simp [listedValues, Keyed.keys]
    · simp [listedValues]

/-- Listed values spell paths when all of them are texts. -/
theorem mapM_listedPath_eq_ok_iff {settings : List Setting} {paths : List FilePath} :
    settings.mapM listedPath = .ok paths ↔
      ∃ names : List String, settings = names.map .text ∧ names.map .ofString = paths := by
  have hpath (setting : Setting) (path : FilePath) :
      listedPath setting = .ok path ↔ ∃ name, setting = .text name ∧ .ofString name = path := by
    cases setting <;> simp [listedPath]
  induction settings generalizing paths with
  | nil => simp [pure, Except.pure, eq_comm]
  | cons setting rest ih =>
      simp only [List.mapM_cons, bind_eq_ok_iff, hpath, ih]
      constructor
      · rintro ⟨_, ⟨name, rfl, rfl⟩, _, ⟨names, rfl, rfl⟩, hpaths⟩
        exact ⟨name :: names, rfl, Except.ok.inj hpaths⟩
      · rintro ⟨names, hsettings, rfl⟩
        cases names with
        | nil => simp at hsettings
        | cons name names =>
            obtain ⟨rfl, rfl⟩ := List.cons.inj hsettings
            exact ⟨_, ⟨name, rfl, rfl⟩, _, ⟨names, rfl, rfl⟩, rfl⟩

/-! ## What is used of the command line and of the project -/

/-- The setting that is used for a field: that of the command line if it may replace the field and
does, else that of the project. -/
def usedSetting? (overrides : ConfigOverrides) (options : Toml.Entries) (field : String) :
    Option Setting :=
  (if field ∈ replaceableFields then Keyed.lookup? field overrides.settings else none).or
    ((Keyed.lookup? field options).map Toml.Value.toSetting)

/-- The place of a whitelist that a project names, relative to the directory of its file. -/
def whitelistPath (tree : FileTree) (directory : Option FilePath) (name : String) : FilePath :=
  match directory with
  | some directory => tree.normalize (directory.join (.ofString name))
  | none => .ofString name

variable {tree : FileTree} {start : FilePath} {overrides : ConfigOverrides}
variable {options : Toml.Entries} {directory : Option FilePath} {config : AnalysisConfig}

/-- The whitelists of a project are the places of the names that it lists. -/
theorem projectWhitelists_eq_ok_iff {paths : List FilePath} :
    projectWhitelists tree options directory = .ok paths ↔
      ∃ names, Sourced Toml.Value.ListsTexts [] (Keyed.lookup? "whitelist_files" options) names ∧
        names.map (whitelistPath tree directory) = paths := by
  -- What comes behind the listing is the same whether or not the project names whitelists.
  have hrest (listed : Except ConfigError (List Setting)) :
      (do
        let values ← listed
        let paths ← values.mapM listedPath
        return match directory with
          | some directory => paths.map fun path => tree.normalize (directory.join path)
          | none => paths) = Except.ok paths ↔
      ∃ names : List String, listed = .ok (names.map .text) ∧
        names.map (whitelistPath tree directory) = paths := by
    have hplace (names : List String) :
        (match directory with
          | some directory =>
            (names.map FilePath.ofString).map fun path => tree.normalize (directory.join path)
          | none => names.map FilePath.ofString)
        = names.map (whitelistPath tree directory) := by
      cases directory with
      | none => rfl
      | some directory => exact List.map_map
    simp only [bind_eq_ok_iff, mapM_listedPath_eq_ok_iff]
    constructor
    · rintro ⟨_, hlisted, _, ⟨names, rfl, rfl⟩, hpaths⟩
      exact ⟨names, hlisted, (hplace names).symm.trans (Except.ok.inj hpaths)⟩
    · rintro ⟨names, hlisted, rfl⟩
      exact ⟨_, hlisted, _, ⟨names, rfl, rfl⟩, congrArg Except.ok (hplace names)⟩
  unfold projectWhitelists Sourced
  cases Keyed.lookup? "whitelist_files" options with
  | none =>
      refine (hrest (.ok [])).trans ?_
      simp [eq_comm]
  | some value =>
      simp only [← listedValues_eq_map_text_iff]
      exact hrest (listedValues value)

/-- The lookup of one field in a row that has at most an entry under another. -/
theorem lookup?_toList_map (field key : String) (setting? : Option Setting) :
    Keyed.lookup? field (setting?.map fun setting => (key, setting)).toList =
      if field = key then setting? else none := by
  cases setting? with
  | none => simp [Keyed.lookup?]
  | some setting => simp [Keyed.lookup?, eq_comm]

/-- The lookup of one field in the settings that are picked for others. -/
theorem lookup?_filterMap_pick? (given : List (String × Setting)) (fields : List String)
    (field : String) :
    Keyed.lookup? field (fields.filterMap (pick? given options)) =
      if field ∈ fields then
        (Keyed.lookup? field given).or ((Keyed.lookup? field options).map Toml.Value.toSetting)
      else none := by
  induction fields with
  | nil => rfl
  | cons other rest ih =>
      have hcons : (other :: rest).filterMap (pick? given options)
          = (pick? given options other).toList ++ rest.filterMap (pick? given options) := by
        cases hpick : pick? given options other <;> simp [hpick]
      rw [hcons, Keyed.lookup?_append, ih, pick?, lookup?_toList_map]
      by_cases hother : field = other
      · subst hother
        rw [if_pos rfl, if_pos List.mem_cons_self]
        split
        · exact Option.or_self
        · exact Option.or_none
      · simp [hother]

/-! ## The settings that are validated -/

/-- The settings that are validated: those of single values, the further whitelists and, where the
project has one, the search path. -/
def gatheredSettings (overrides : ConfigOverrides) (options : Toml.Entries)
    (whitelists : List FilePath) (luaPath? : Option Setting) : List (String × Setting) :=
  replaceableFields.filterMap (pick? overrides.settings options)
    ++ (pick? [] options "builtin_whitelist").toList
    ++ [("whitelist_files", .items ((whitelists ++ overrides.whitelistFiles).map .path))]
    ++ (luaPath?.map fun setting => ("lua_path", setting)).toList

variable {whitelists : List FilePath} {luaPath? : Option Setting}

/-- The lookup of one field in the settings that are validated. -/
theorem lookup?_gathered (field : String) :
    Keyed.lookup? field (gatheredSettings overrides options whitelists luaPath?) =
      (if field ∈ replaceableFields then
        (Keyed.lookup? field overrides.settings).or
          ((Keyed.lookup? field options).map Toml.Value.toSetting)
        else none).or
      ((if field = "builtin_whitelist" then
        (Keyed.lookup? "builtin_whitelist" options).map Toml.Value.toSetting else none).or
      ((if field = "whitelist_files" then
        some (.items ((whitelists ++ overrides.whitelistFiles).map .path)) else none).or
      (if field = "lua_path" then luaPath? else none))) := by
  have hfiles (setting : Setting) : Keyed.lookup? field [("whitelist_files", setting)] =
      if field = "whitelist_files" then some setting else none :=
    lookup?_toList_map field "whitelist_files" (some setting)
  rw [gatheredSettings, Keyed.lookup?_append, Keyed.lookup?_append, Keyed.lookup?_append,
    lookup?_filterMap_pick?, hfiles, lookup?_toList_map, pick?, lookup?_toList_map,
    Keyed.lookup?, Option.none_or, Option.or_assoc, Option.or_assoc]

/-- Under a field that is no list stands the setting that is used for it. -/
theorem lookup?_gathered_of_mem {field : String} (h : field ∈ AnalysisConfig.scalarFields) :
    Keyed.lookup? field (gatheredSettings overrides options whitelists luaPath?) =
      usedSetting? overrides options field := by
  rw [lookup?_gathered, usedSetting?]
  simp only [AnalysisConfig.scalarFields, List.mem_cons, List.not_mem_nil, or_false] at h
  rcases h with rfl | rfl | rfl | rfl | rfl | rfl <;> simp [replaceableFields]

/-- Under the further whitelists stand those of the project and those of the command line. -/
theorem lookup?_gathered_whitelist_files :
    Keyed.lookup? "whitelist_files" (gatheredSettings overrides options whitelists luaPath?) =
      some (.items ((whitelists ++ overrides.whitelistFiles).map .path)) := by
  rw [lookup?_gathered]
  simp [replaceableFields]

/-- Under the search path stands that of the project. -/
theorem lookup?_gathered_lua_path :
    Keyed.lookup? "lua_path" (gatheredSettings overrides options whitelists luaPath?) =
      luaPath? := by
  rw [lookup?_gathered]
  simp [replaceableFields]

/-- Gathered settings are valid when the used ones are and the search path is. -/
theorem ofSettings_gathered_eq_ok_iff :
    AnalysisConfig.ofSettings (gatheredSettings overrides options whitelists luaPath?)
        = .ok config ↔
      AnalysisConfig.HasScalars (usedSetting? overrides options) config ∧
      config.whitelistFiles = whitelists ++ overrides.whitelistFiles ∧
      Sourced (Setting.AcceptedBy Setting.asTexts "lua_path") AnalysisConfig.standard.luaPath
        luaPath? config.luaPath := by
  rw [AnalysisConfig.ofSettings_eq_ok_iff, lookup?_gathered_whitelist_files,
    lookup?_gathered_lua_path]
  refine and_congr ⟨?_, ?_⟩ (and_congr ?_ Iff.rfl)
  · exact AnalysisConfig.HasScalars.congr fun _ => lookup?_gathered_of_mem
  · exact AnalysisConfig.HasScalars.congr fun _ hfield => (lookup?_gathered_of_mem hfield).symm
  · rw [Sourced, Setting.AcceptedBy, Setting.asPaths_items_map_path, Except.ok.injEq, eq_comm]

/-- The setting of the search path that is gathered from a value. -/
def Gathers (value : Toml.Value) (luaPath? : Option Setting) : Prop :=
  ∃ values, listedValues value = .ok values ∧ luaPath? = some (.items values)

/-- What is gathered for the search path is valid when it lists texts. -/
theorem exists_gathered_iff {value? : Option Toml.Value} {texts : List String} :
    (∃ luaPath?, Sourced Gathers none value? luaPath? ∧
        Sourced (Setting.AcceptedBy Setting.asTexts "lua_path") AnalysisConfig.standard.luaPath
          luaPath? texts) ↔
      Sourced Toml.Value.ListsTexts AnalysisConfig.standard.luaPath value? texts := by
  cases value? with
  | none => exact exists_eq_left
  | some value =>
      constructor
      · rintro ⟨_, ⟨values, hvalues, rfl⟩, htexts⟩
        rw [Setting.asTexts_items_eq_ok_iff.mp htexts] at hvalues
        exact listedValues_eq_map_text_iff.mp hvalues
      · intro h
        exact ⟨_, ⟨_, listedValues_eq_map_text_iff.mpr h, rfl⟩,
          Setting.asTexts_items_eq_ok_iff.mpr rfl⟩

/-- A configuration is loaded by gathering settings and validating them. -/
theorem load_eq_ok_iff_gathered
    (hoptions : projectOptions tree start = .ok (options, directory)) :
    AnalysisConfig.load tree start overrides = .ok config ↔
      ∃ whitelists, projectWhitelists tree options directory = .ok whitelists ∧
        ∃ luaPath?, Sourced Gathers none (Keyed.lookup? "lua_path" options) luaPath? ∧
          AnalysisConfig.ofSettings (gatheredSettings overrides options whitelists luaPath?)
            = .ok config := by
  have hvalid (result : Validated AnalysisConfig) :
      result.mapError ConfigError.invalid = .ok config ↔ result = .ok config := by
    cases result <;> simp [Except.mapError]
  unfold AnalysisConfig.load
  cases hpath : Keyed.lookup? "lua_path" options with
  | none =>
      simp only [hoptions, hpath, bind_eq_ok_iff, Except.ok.injEq, exists_eq_left', hvalid,
        Sourced, exists_eq_left]
      exact Iff.rfl
  | some value =>
      simp only [hoptions, hpath, bind_eq_ok_iff, Except.ok.injEq, exists_eq_left', hvalid,
        Sourced, map_eq_ok_iff]
      constructor
      · rintro ⟨whitelists, hwhitelists, _, ⟨values, hvalues, rfl⟩, hsettings⟩
        exact ⟨whitelists, hwhitelists, _, ⟨values, hvalues, rfl⟩, hsettings⟩
      · rintro ⟨whitelists, hwhitelists, _, ⟨values, hvalues, rfl⟩, hsettings⟩
        exact ⟨whitelists, hwhitelists, _, ⟨values, hvalues, rfl⟩, hsettings⟩

end LuaGlobals
