import LuaGlobals.Config.Basic
import Mathlib.Data.List.Forall2

/-! # Settings that are valid

Each type of a field accepts certain settings and reads a value from them. Here is what a type
accepts, told without the order in which validation looks for errors.

* `Setting.Says` and `Setting.SpellsVersion` are what flags and versions accept.
* `Sourced`: a field has the value that its source is read as, or its default without a source.
* `Setting.asList_items_eq_ok_iff`: a list is valid when each of its items is.
* **`AnalysisConfig.ofSettings_eq_ok_iff`**: settings are valid when the setting of each field is,
  and then the configuration has the values that they are read as. -/

namespace LuaGlobals

/-! ## Errors that are collected -/

namespace Validated

variable {α β : Type}

/-- An application has a result when function and value are there. -/
theorem apply_eq_ok_iff {function : Validated (α → β)} {value : Validated α} {result : β} :
    apply function value = .ok result ↔
      ∃ use, function = .ok use ∧ ∃ argument, value = .ok argument ∧ use argument = result := by
  cases function with
  | error errors => cases value <;> simp [apply]
  | ok use => cases value <;> simp [apply]

/-- A row has its values when each of them is there. -/
theorem sequence_eq_ok_iff {results : List (Validated α)} {values : List α} :
    sequence results = .ok values ↔ results = values.map .ok := by
  induction results generalizing values with
  | nil => cases values <;> simp [sequence]
  | cons result rest ih =>
      rw [sequence, apply_eq_ok_iff]
      simp only [apply_eq_ok_iff, ih, Except.ok.injEq]
      constructor
      · rintro ⟨use, ⟨cons, rfl, first, rfl, rfl⟩, values, rfl, rfl⟩
        rfl
      · intro h
        cases values with
        | nil => simp at h
        | cons first values =>
            obtain ⟨hfirst, hrest⟩ := List.cons.inj h
            exact ⟨_, ⟨_, rfl, first, hfirst, rfl⟩, values, hrest, rfl⟩

end Validated

/-! ## What a type accepts -/

namespace Setting

/-- What a flag accepts for an answer: the truth value itself, its number, or a word for it. -/
def Says (setting : Setting) (answer : Bool) : Prop :=
  match setting with
  | .flag value => value = answer
  | .integer value => value = answer.toInt
  | .float value => value = .integer answer.toInt
  | .text value => lowerCase value ∈ if answer then yesWords else noWords
  | _ => False

/-- What the version of Lua accepts: a text that is a version which has a whitelist, up to blanks
around it. -/
def SpellsVersion (setting : Setting) (version : String) : Prop :=
  ∃ text, setting = .text text ∧ Text.trimString text = version ∧ version ∈ supportedVersions

/-- A field accepts a setting as a value when validation reads the one as the other. -/
def AcceptedBy {α : Type} (read : String → Setting → Validated α) (field : String)
    (setting : Setting) (value : α) : Prop :=
  read field setting = .ok value

/-- An integer is a flag when it is the number of a truth value. -/
theorem integerAsFlag_eq_ok_iff {field : String} {value : Int} {answer : Bool} :
    integerAsFlag field value = .ok answer ↔ value = answer.toInt := by
  unfold integerAsFlag Validated.fail
  cases answer <;> split <;> try split
  all_goals simp_all

/-- A setting is a flag when it says yes or no. -/
theorem asFlag_eq_ok_iff {field : String} {setting : Setting} {answer : Bool} :
    setting.asFlag field = .ok answer ↔ setting.Says answer := by
  cases setting with
  | flag value => simp [asFlag, Says]
  | integer value =>
      -- The bound on integers cuts off none that says something.
      have hfits : value = answer.toInt → fitsWord value = true := by
        rintro rfl
        cases answer <;> decide
      simp only [asFlag, Says]
      split
      case isTrue => exact integerAsFlag_eq_ok_iff
      case isFalse hlarge => simpa [Validated.fail] using mt hfits hlarge
  | float value =>
      cases value with
      | notFinite => simp [asFlag, Says, integerOfFloat, Validated.fail]
      | fraction => simp [asFlag, Says, integerOfFloat, Validated.fail]
      | integer value =>
          simp only [asFlag, Says, integerOfFloat, FloatValue.integer.injEq]
          by_cases hsmall : -wordBound < value ∧ value < wordBound
          · rw [if_pos hsmall]
            exact integerAsFlag_eq_ok_iff
          · have hother : value ≠ answer.toInt := by
              rintro rfl
              exact hsmall (by cases answer <;> decide)
            simpa [hsmall, Validated.fail] using hother
  | text value =>
      -- No word says both, so it does not matter which of them are tried first.
      have hdisjoint : ∀ word ∈ yesWords, word ∉ noWords := by decide
      simp only [asFlag, Says, List.contains_iff_mem]
      by_cases hyes : lowerCase value ∈ yesWords
      · have hno := hdisjoint _ hyes
        cases answer <;> simp [hyes, hno]
      · by_cases hno : lowerCase value ∈ noWords
        · cases answer <;> simp [hyes, hno]
        · cases answer <;> simp [hyes, hno, Validated.fail]
  | _ => simp [asFlag, Says, Validated.fail]

/-- A setting is a text when it is one as it stands. -/
theorem asText_eq_ok_iff {location : List String} {setting : Setting} {value : String} :
    setting.asText location = .ok value ↔ setting = .text value := by
  cases setting <;> simp [asText, Validated.fail]

/-- A setting is a version when it spells one that has a whitelist. -/
theorem asVersion_eq_ok_iff {field : String} {setting : Setting} {version : String} :
    setting.asVersion field = .ok version ↔ setting.SpellsVersion version := by
  cases setting with
  | text text =>
      have hspells : SpellsVersion (.text text) version ↔
          Text.trimString text = version ∧ version ∈ supportedVersions := by
        simp [SpellsVersion]
      rw [hspells]
      by_cases hknown : Text.trimString text ∈ supportedVersions
      · have hok : asVersion field (.text text) = .ok (Text.trimString text) := by
          simp [asVersion, asText, hknown]
        rw [hok, Except.ok.injEq]
        exact ⟨fun h => ⟨h, h ▸ hknown⟩, And.left⟩
      · have hfail : asVersion field (.text text)
            = .fail [field] (.unsupportedVersion (Text.trimString text)) := by
          simp [asVersion, asText, hknown]
        rw [hfail, Validated.fail]
        constructor
        · exact nofun
        · rintro ⟨rfl, hsupported⟩
          exact absurd hsupported hknown
  | _ => simp [asVersion, asText, SpellsVersion, Validated.fail]

variable {α : Type} {item : List String → Setting → Validated α} {reads : Setting → α → Prop}

/-- A list is valid when each of its items is, wherever it stands. -/
theorem asList_items_eq_ok_iff
    (hitem : ∀ location setting value, item location setting = .ok value ↔ reads setting value)
    {field : String} {settings : List Setting} {values : List α} :
    asList field item (.items settings) = .ok values ↔ List.Forall₂ reads settings values := by
  rw [asList, Validated.sequence_eq_ok_iff]
  -- The place at which the items start is arbitrary, since no item depends on its own.
  generalize 0 = start
  induction settings generalizing values start with
  | nil => cases values <;> simp
  | cons setting rest ih =>
      cases values with
      | nil => simp
      | cons value values =>
          rw [List.zipIdx_cons, List.map_cons, List.map_cons, List.cons.injEq, hitem, ih,
            List.forall₂_cons]

/-- A list of settings is a list of texts when each of them is a text. -/
theorem asTexts_items_eq_ok_iff {field : String} {settings : List Setting}
    {texts : List String} :
    asTexts field (.items settings) = .ok texts ↔ settings = texts.map .text := by
  have hitem : ∀ location setting value,
      asText location setting = .ok value ↔ setting = .text value :=
    fun _ _ _ => asText_eq_ok_iff
  rw [asTexts, asList_items_eq_ok_iff hitem, ← List.forall₂_map_right_iff, List.forall₂_eq_eq_eq]

/-- Paths are a list of paths. -/
theorem asPaths_items_map_path {field : String} (paths : List FilePath) :
    asPaths field (.items (paths.map .path)) = .ok paths := by
  have hitem : ∀ location setting path,
      asPath location setting = .ok path ↔ asPath [] setting = .ok path := by
    intro location setting path
    cases setting <;> simp [asPath, Validated.fail]
  rw [asPaths, asList_items_eq_ok_iff hitem, List.forall₂_map_left_iff]
  exact List.forall₂_same.mpr fun path _ => rfl

end Setting

/-! ## Fields and their sources -/

section Sourced

variable {α β : Type} {reads others : α → β → Prop} {default value : β} {source? : Option α}

/-- A field has the value that its source is read as, and its default without a source. -/
def Sourced (reads : α → β → Prop) (default : β) (source? : Option α) (value : β) : Prop :=
  match source? with
  | none => value = default
  | some source => reads source value

/-- There is a value for a field when its source, if there is one, can be read. -/
theorem exists_sourced_iff :
    (∃ value, Sourced reads default source? value) ↔
      ∀ source, source? = some source → ∃ value, reads source value := by
  cases source? with
  | none => simp [Sourced]
  | some source => simp [Sourced]

/-- A source that is read alike in another way gives the same value. -/
theorem Sourced.mono (h : Sourced reads default source? value)
    (hothers : ∀ source, source? = some source → reads source value → others source value) :
    Sourced others default source? value := by
  cases source? with
  | none => exact h
  | some source => exact hothers source rfl h

end Sourced

namespace AnalysisConfig

/-- A configuration has the values of its fields that are not lists from the given sources. -/
structure HasScalars (source? : String → Option Setting) (config : AnalysisConfig) : Prop where
  /-- The flag for definitions that are unknown. -/
  tolerant :
    Sourced Setting.Says standard.scoping.tolerant (source? "tolerant") config.scoping.tolerant
  /-- The flag for the names that a unit defines. -/
  globalsWithinModule :
    Sourced Setting.Says standard.scoping.globalsWithinModule (source? "globals_within_module")
      config.scoping.globalsWithinModule
  /-- The flag for the names that required modules export. -/
  loadRequires :
    Sourced Setting.Says standard.scoping.loadRequires (source? "load_requires")
      config.scoping.loadRequires
  /-- The version of Lua. -/
  luaVersion :
    Sourced Setting.SpellsVersion standard.luaVersion (source? "lua_version") config.luaVersion
  /-- The flag for the standard globals. -/
  builtinWhitelist :
    Sourced Setting.Says standard.builtinWhitelist (source? "builtin_whitelist")
      config.builtinWhitelist
  /-- The compiler, which any text may name. -/
  luac : Sourced (fun setting name => setting = .text name) standard.luac (source? "luac")
    config.luac

/-- The fields that are not lists. -/
def scalarFields : List String :=
  ["tolerant", "globals_within_module", "load_requires", "lua_version", "builtin_whitelist", "luac"]

/-- The sources of other fields do not matter. -/
theorem HasScalars.congr {source? other? : String → Option Setting} {config : AnalysisConfig}
    (hsame : ∀ field ∈ scalarFields, source? field = other? field)
    (h : HasScalars source? config) : HasScalars other? config where
  tolerant := hsame "tolerant" (by decide) ▸ h.tolerant
  globalsWithinModule := hsame "globals_within_module" (by decide) ▸ h.globalsWithinModule
  loadRequires := hsame "load_requires" (by decide) ▸ h.loadRequires
  luaVersion := hsame "lua_version" (by decide) ▸ h.luaVersion
  builtinWhitelist := hsame "builtin_whitelist" (by decide) ▸ h.builtinWhitelist
  luac := hsame "luac" (by decide) ▸ h.luac

/-- The value of a field is valid when its source is. -/
theorem fieldOr_eq_ok_iff {α : Type} {settings : List (String × Setting)} {field : String}
    {default value : α} {read : String → Setting → Validated α} {reads : Setting → α → Prop}
    (hread : ∀ setting value, read field setting = .ok value ↔ reads setting value) :
    fieldOr settings field default read = .ok value ↔
      Sourced reads default (Keyed.lookup? field settings) value := by
  unfold fieldOr Sourced
  cases Keyed.lookup? field settings with
  | none => simp [eq_comm]
  | some setting => exact hread setting value

/-- **Settings are valid when the setting of each field is**, and then the configuration has the
values that they are read as. -/
theorem ofSettings_eq_ok_iff {settings : List (String × Setting)} {config : AnalysisConfig} :
    ofSettings settings = .ok config ↔
      HasScalars (fun field => Keyed.lookup? field settings) config ∧
      Sourced (Setting.AcceptedBy Setting.asPaths "whitelist_files") standard.whitelistFiles
        (Keyed.lookup? "whitelist_files" settings) config.whitelistFiles ∧
      Sourced (Setting.AcceptedBy Setting.asTexts "lua_path") standard.luaPath
        (Keyed.lookup? "lua_path" settings) config.luaPath := by
  have hflag (field : String) (default value : Bool) :
      fieldOr settings field default Setting.asFlag = .ok value ↔
        Sourced Setting.Says default (Keyed.lookup? field settings) value :=
    fieldOr_eq_ok_iff fun _ _ => Setting.asFlag_eq_ok_iff
  have hversion (value : String) :
      fieldOr settings "lua_version" standard.luaVersion Setting.asVersion = .ok value ↔
        Sourced Setting.SpellsVersion standard.luaVersion
          (Keyed.lookup? "lua_version" settings) value :=
    fieldOr_eq_ok_iff fun _ _ => Setting.asVersion_eq_ok_iff
  have hluac (value : String) :
      fieldOr settings "luac" standard.luac (fun field => Setting.asText [field]) = .ok value ↔
        Sourced (fun setting name => setting = .text name) standard.luac
          (Keyed.lookup? "luac" settings) value :=
    fieldOr_eq_ok_iff fun _ _ => Setting.asText_eq_ok_iff
  have hlist {α : Type} (field : String) (default value : List α)
      (read : String → Setting → Validated (List α)) :
      fieldOr settings field default read = .ok value ↔
        Sourced (Setting.AcceptedBy read field) default (Keyed.lookup? field settings) value :=
    fieldOr_eq_ok_iff fun _ _ => Iff.rfl
  simp only [ofSettings, Validated.apply_eq_ok_iff, hflag, hversion, hluac, hlist]
  -- The applications nest, so the last field is the outermost one.
  constructor
  · rintro ⟨_, ⟨_, ⟨_, ⟨_, ⟨_, ⟨_, ⟨_, ⟨_, hbuild, _, htolerant, rfl⟩, _, hglobals, rfl⟩, _, hload,
      rfl⟩, _, hversion, rfl⟩, _, hbuiltin, rfl⟩, _, hfiles, rfl⟩, _, hluac, rfl⟩, _, hpath, rfl⟩
    obtain rfl := Except.ok.inj hbuild
    exact ⟨⟨htolerant, hglobals, hload, hversion, hbuiltin, hluac⟩, hfiles, hpath⟩
  · rintro ⟨⟨htolerant, hglobals, hload, hversion, hbuiltin, hluac⟩, hfiles, hpath⟩
    exact ⟨_, ⟨_, ⟨_, ⟨_, ⟨_, ⟨_, ⟨_, ⟨_, rfl, _, htolerant, rfl⟩, _, hglobals, rfl⟩, _, hload,
      rfl⟩, _, hversion, rfl⟩, _, hbuiltin, rfl⟩, _, hfiles, rfl⟩, _, hluac, rfl⟩, _, hpath, rfl⟩

end AnalysisConfig

end LuaGlobals
