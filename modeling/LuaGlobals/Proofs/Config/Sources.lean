import LuaGlobals.Proofs.Config.Gathered

/-! # Where the configuration comes from

Each field of the configuration has its value from the command line, from the options of the
project or from a default, and there is no configuration when a value that is used is not of the
type of its field. This is the law of the configuration. The two lists of a project are turned into
rows before they are validated, and so the law holds with a text for the list of its characters and
a table for the list of its keys.

* `Configured` says which values a configuration has, and `Refused` which fields prevent one.
* `load_eq_ok_iff`: a configuration is loaded when it has the values that its sources give.
* `exists_configured_iff`: there is one when no field is refused.
* **`load_lawful_iff`**: loading keeps the law for lists that are read so, and for lists that are
  arrays of texts exactly when it accepts no other value for one. -/

namespace LuaGlobals

variable {tree : FileTree} {start : FilePath} {overrides : ConfigOverrides}
variable {options : Toml.Entries} {directory : Option FilePath} {config : AnalysisConfig}

/-! ## The law of the configuration -/

/-- A configuration has its values from the command line, the project and the defaults, where the
lists of the project are read in one way. The whitelists of the command line follow those of the
project. -/
structure Configured (lists : Toml.Value → List String → Prop) (tree : FileTree)
    (options : Toml.Entries) (directory : Option FilePath) (overrides : ConfigOverrides)
    (config : AnalysisConfig) : Prop where
  /-- The fields that are no lists have the settings that are used for them. -/
  scalars : AnalysisConfig.HasScalars (usedSetting? overrides options) config
  /-- The further whitelists are those that the project lists and those of the command line. -/
  whitelistFiles :
    ∃ names, Sourced lists [] (Keyed.lookup? "whitelist_files" options) names ∧
      config.whitelistFiles = names.map (whitelistPath tree directory) ++ overrides.whitelistFiles
  /-- The search path is what the project lists. -/
  luaPath :
    Sourced lists AnalysisConfig.standard.luaPath (Keyed.lookup? "lua_path" options) config.luaPath

/-- The fields that yes or no is said to. -/
def flagFields : List String :=
  ["tolerant", "globals_within_module", "load_requires", "builtin_whitelist"]

/-- The fields that list texts in the options of a project. -/
def listFields : List String :=
  ["whitelist_files", "lua_path"]

/-- A field for which a value is used that its type does not accept. -/
inductive Refused (lists : Toml.Value → List String → Prop) (options : Toml.Entries)
    (overrides : ConfigOverrides) : String → Prop where
  /-- A flag whose setting says neither yes nor no. -/
  | flag {field : String} {setting : Setting} (hfield : field ∈ flagFields)
    (hused : usedSetting? overrides options field = some setting)
    (hno : ∀ answer, ¬ setting.Says answer) : Refused lists options overrides field
  /-- A version without a whitelist. -/
  | version {setting : Setting}
    (hused : usedSetting? overrides options "lua_version" = some setting)
    (hno : ∀ version, ¬ setting.SpellsVersion version) :
    Refused lists options overrides "lua_version"
  /-- A compiler that is no text. -/
  | luac {setting : Setting} (hused : usedSetting? overrides options "luac" = some setting)
    (hno : ∀ name, setting ≠ .text name) : Refused lists options overrides "luac"
  /-- A list of the project that lists no texts. -/
  | list {field : String} {value : Toml.Value} (hfield : field ∈ listFields)
    (hused : Keyed.lookup? field options = some value)
    (hno : ∀ texts, ¬ lists value texts) : Refused lists options overrides field

/-- A result keeps the law when it is a configuration exactly as the sources give it, and an error
exactly when the type of some field refuses the value that is used for it. -/
def Lawful (lists : Toml.Value → List String → Prop) (tree : FileTree) (options : Toml.Entries)
    (directory : Option FilePath) (overrides : ConfigOverrides)
    (result : Except ConfigError AnalysisConfig) : Prop :=
  (∀ config, result = .ok config ↔ Configured lists tree options directory overrides config) ∧
  ((∃ error, result = .error error) ↔ ∃ field, Refused lists options overrides field)

/-- **A configuration is loaded when it has the values that its sources give.** -/
theorem load_eq_ok_iff (hoptions : projectOptions tree start = .ok (options, directory)) :
    AnalysisConfig.load tree start overrides = .ok config ↔
      Configured Toml.Value.ListsTexts tree options directory overrides config := by
  rw [load_eq_ok_iff_gathered hoptions]
  constructor
  · rintro ⟨_, hwhitelists, luaPath?, hpath, hsettings⟩
    obtain ⟨names, hnames, rfl⟩ := projectWhitelists_eq_ok_iff.mp hwhitelists
    obtain ⟨hscalars, hfiles, htexts⟩ := ofSettings_gathered_eq_ok_iff.mp hsettings
    exact ⟨hscalars, ⟨names, hnames, hfiles⟩, exists_gathered_iff.mp ⟨luaPath?, hpath, htexts⟩⟩
  · rintro ⟨hscalars, ⟨names, hnames, hfiles⟩, htexts⟩
    obtain ⟨luaPath?, hpath, htexts⟩ := exists_gathered_iff.mpr htexts
    exact ⟨_, projectWhitelists_eq_ok_iff.mpr ⟨names, hnames, rfl⟩, luaPath?, hpath,
      ofSettings_gathered_eq_ok_iff.mpr ⟨hscalars, hfiles, htexts⟩⟩

/-! ## Fields that prevent a configuration -/

variable {lists others : Toml.Value → List String → Prop}

/-- The setting that is used for a flag says yes or no. -/
theorem Configured.exists_says (h : Configured lists tree options directory overrides config)
    {field : String} (hfield : field ∈ flagFields) {setting : Setting}
    (hused : usedSetting? overrides options field = some setting) :
    ∃ answer, setting.Says answer := by
  have hsourced : ∃ default answer,
      Sourced Setting.Says default (usedSetting? overrides options field) answer := by
    simp only [flagFields, List.mem_cons, List.not_mem_nil, or_false] at hfield
    rcases hfield with rfl | rfl | rfl | rfl
    · exact ⟨_, _, h.scalars.tolerant⟩
    · exact ⟨_, _, h.scalars.globalsWithinModule⟩
    · exact ⟨_, _, h.scalars.loadRequires⟩
    · exact ⟨_, _, h.scalars.builtinWhitelist⟩
  obtain ⟨default, answer, hanswer⟩ := hsourced
  rw [hused] at hanswer
  exact ⟨answer, hanswer⟩

/-- The value of a list of the project lists texts. -/
theorem Configured.exists_lists (h : Configured lists tree options directory overrides config)
    {field : String} (hfield : field ∈ listFields) {value : Toml.Value}
    (hused : Keyed.lookup? field options = some value) : ∃ texts, lists value texts := by
  have hsourced : ∃ default texts,
      Sourced lists default (Keyed.lookup? field options) texts := by
    simp only [listFields, List.mem_cons, List.not_mem_nil, or_false] at hfield
    rcases hfield with rfl | rfl
    · obtain ⟨names, hnames, -⟩ := h.whitelistFiles
      exact ⟨_, _, hnames⟩
    · exact ⟨_, _, h.luaPath⟩
  obtain ⟨default, texts, htexts⟩ := hsourced
  rw [hused] at htexts
  exact ⟨texts, htexts⟩

/-- Lists that are read alike in two ways give the same configuration. -/
theorem Configured.mono (h : Configured lists tree options directory overrides config)
    (hlists : ∀ field ∈ listFields, ∀ value, Keyed.lookup? field options = some value →
      ∀ texts, lists value texts → others value texts) :
    Configured others tree options directory overrides config where
  scalars := h.scalars
  whitelistFiles := by
    obtain ⟨names, hnames, hfiles⟩ := h.whitelistFiles
    exact ⟨names, hnames.mono fun value hvalue =>
      hlists _ (by decide) value hvalue names, hfiles⟩
  luaPath := h.luaPath.mono fun value hvalue => hlists _ (by decide) value hvalue _

/-- There is a configuration with the values of the sources when no field is refused. -/
theorem exists_configured_iff :
    (∃ config, Configured lists tree options directory overrides config) ↔
      ∀ field, ¬ Refused lists options overrides field := by
  constructor
  · rintro ⟨config, h⟩ field hrefused
    cases hrefused with
    | flag hfield hused hno =>
        obtain ⟨answer, hanswer⟩ := h.exists_says hfield hused
        exact hno answer hanswer
    | version hused hno =>
        have hversion := h.scalars.luaVersion
        rw [hused] at hversion
        exact hno _ hversion
    | luac hused hno =>
        have hluac := h.scalars.luac
        rw [hused] at hluac
        exact hno _ hluac
    | list hfield hused hno =>
        obtain ⟨texts, htexts⟩ := h.exists_lists hfield hused
        exact hno texts htexts
  · intro h
    -- What is not refused can be read, and each field is read for itself.
    have hflag (field : String) (hfield : field ∈ flagFields) (default : Bool) :
        ∃ answer, Sourced Setting.Says default (usedSetting? overrides options field) answer := by
      rw [exists_sourced_iff]
      intro setting hused
      by_contra hno
      exact h field (.flag hfield hused (not_exists.mp hno))
    have hlist (field : String) (hfield : field ∈ listFields) (default : List String) :
        ∃ texts, Sourced lists default (Keyed.lookup? field options) texts := by
      rw [exists_sourced_iff]
      intro value hused
      by_contra hno
      exact h field (.list hfield hused (not_exists.mp hno))
    have hversion : ∃ version, Sourced Setting.SpellsVersion AnalysisConfig.standard.luaVersion
        (usedSetting? overrides options "lua_version") version := by
      rw [exists_sourced_iff]
      intro setting hused
      by_contra hno
      exact h _ (.version hused (not_exists.mp hno))
    have hluac : ∃ name, Sourced (fun setting name => setting = .text name)
        AnalysisConfig.standard.luac (usedSetting? overrides options "luac") name := by
      rw [exists_sourced_iff]
      intro setting hused
      by_contra hno
      exact h _ (.luac hused (not_exists.mp hno))
    obtain ⟨tolerant, htolerant⟩ := hflag "tolerant" (by decide) _
    obtain ⟨globalsWithinModule, hglobals⟩ := hflag "globals_within_module" (by decide) _
    obtain ⟨loadRequires, hload⟩ := hflag "load_requires" (by decide) _
    obtain ⟨builtinWhitelist, hbuiltin⟩ := hflag "builtin_whitelist" (by decide) _
    obtain ⟨luaVersion, hversion⟩ := hversion
    obtain ⟨luac, hluac⟩ := hluac
    obtain ⟨names, hnames⟩ := hlist "whitelist_files" (by decide) []
    obtain ⟨luaPath, hpath⟩ := hlist "lua_path" (by decide) _
    exact ⟨⟨⟨tolerant, globalsWithinModule, loadRequires⟩, luaVersion, builtinWhitelist, _, luac,
        luaPath⟩,
      ⟨htolerant, hglobals, hload, hversion, hbuiltin, hluac⟩, ⟨names, hnames, rfl⟩, hpath⟩

/-! ## When the law holds -/

/-- A result that is a configuration exactly as the sources give it is an error exactly when a
field is refused. -/
theorem lawful_of_eq_ok_iff {result : Except ConfigError AnalysisConfig}
    (h : ∀ config, result = .ok config ↔
      Configured lists tree options directory overrides config) :
    Lawful lists tree options directory overrides result := by
  refine ⟨h, ?_⟩
  have hsome : (∃ config, result = .ok config) ↔
      ∀ field, ¬ Refused lists options overrides field := by
    simp only [h, exists_configured_iff]
  have herror : (∃ error, result = .error error) ↔ ¬ ∃ config, result = .ok config := by
    cases result <;> simp
  rw [herror, hsome]
  exact not_forall_not

/-- **Loading keeps the law of the configuration** when a text counts as the list of its characters
and a table as the list of its keys. It keeps the law for lists that are arrays of texts exactly
when it accepts no list that is another value. -/
theorem load_lawful_iff (hoptions : projectOptions tree start = .ok (options, directory)) :
    Lawful Toml.Value.ListsTexts tree options directory overrides
        (AnalysisConfig.load tree start overrides) ∧
      (Lawful Toml.Value.IsTextArray tree options directory overrides
          (AnalysisConfig.load tree start overrides) ↔
        ∀ config, AnalysisConfig.load tree start overrides = .ok config →
          ∀ field ∈ listFields, ∀ value, Keyed.lookup? field options = some value →
            ∃ values, value = .array values) := by
  refine ⟨lawful_of_eq_ok_iff fun config => load_eq_ok_iff hoptions, ?_, ?_⟩
  · rintro ⟨hconfigured, -⟩ config hload field hfield value hused
    obtain ⟨texts, htexts⟩ := ((hconfigured config).mp hload).exists_lists hfield hused
    exact ⟨_, htexts⟩
  · intro harrays
    -- An array lists only the texts that it is made of, so both ways of reading agree.
    refine lawful_of_eq_ok_iff fun config => ?_
    constructor
    · intro hload
      refine ((load_eq_ok_iff hoptions).mp hload).mono ?_
      intro field hfield value hused texts htexts
      obtain ⟨values, rfl⟩ := harrays config hload field hfield value hused
      exact htexts.isTextArray
    · intro hconfigured
      refine (load_eq_ok_iff hoptions).mpr (hconfigured.mono ?_)
      exact fun _ _ _ _ _ htexts => htexts.listsTexts

/-- A result that is some value is this value. -/
theorem eq_ok_of_toOption {ε α : Type} {result : Except ε α} {value : α}
    (h : result.toOption = some value) : result = .ok value := by
  cases result with
  | error error => cases h
  | ok value => exact congrArg Except.ok (Option.some.inj h)

/-- A project whose search path is a text and whose version is a number, with one whitelist. -/
def textPathTree : FileTree :=
  ⟨["work"], [(["work", "pyproject.toml"], .file ("[tool.lglob]\nlua_path = \"?.lua\"\n"
    ++ "lua_version = 5.3\nwhitelist_files = [\"a.json\"]\n"))]⟩

/-- A command line that sets the version and adds a whitelist. -/
def versionOverrides : ConfigOverrides :=
  ⟨[("lua_version", .text "5.2")], [.ofString "b.json"]⟩

/-- What is loaded there: the characters of the text are the templates of the search path. -/
def spelledPathConfig : AnalysisConfig :=
  { AnalysisConfig.standard with
    luaVersion := "5.2"
    whitelistFiles := [⟨1, ["work", "a.json"]⟩, ⟨0, ["b.json"]⟩]
    luaPath := ["?", ".", "l", "u", "a"] }

/-- The number is not refused, since the command line replaces it. The text is not refused either,
and so the law for arrays of texts is broken. -/
theorem textPathTree_breaks_law :
    ∃ options directory, projectOptions textPathTree .here = .ok (options, directory) ∧
      Keyed.lookup? "lua_path" options = some (.string "?.lua") ∧
      AnalysisConfig.load textPathTree .here versionOverrides = .ok spelledPathConfig ∧
      Lawful Toml.Value.ListsTexts textPathTree options directory versionOverrides
        (.ok spelledPathConfig) ∧
      ¬ Lawful Toml.Value.IsTextArray textPathTree options directory versionOverrides
        (.ok spelledPathConfig) := by
  have hload : AnalysisConfig.load textPathTree .here versionOverrides = .ok spelledPathConfig :=
    eq_ok_of_toOption (by decide +kernel)
  have htext : ((projectOptions textPathTree .here).toOption.bind fun found =>
      (Keyed.lookup? "lua_path" found.1).bind fun value => (value.toSetting.asText []).toOption)
        = some "?.lua" := by
    decide +kernel
  obtain ⟨⟨options, directory⟩, hfound, hvalue⟩ := Option.bind_eq_some_iff.mp htext
  obtain ⟨value, hpath, htext⟩ := Option.bind_eq_some_iff.mp hvalue
  have hoptions := eq_ok_of_toOption hfound
  obtain rfl := toSetting_eq_text_iff.mp (Setting.asText_eq_ok_iff.mp (eq_ok_of_toOption htext))
  obtain ⟨hlawful, harrays⟩ :=
    @load_lawful_iff textPathTree .here versionOverrides options directory hoptions
  rw [hload] at hlawful harrays
  refine ⟨options, directory, hoptions, hpath, hload, hlawful, fun hstrict => ?_⟩
  obtain ⟨values, hvalues⟩ := harrays.mp hstrict _ rfl "lua_path" (by decide) _ hpath
  cases hvalues

end LuaGlobals
