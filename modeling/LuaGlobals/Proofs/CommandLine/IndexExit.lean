import LuaGlobals.Proofs.CommandLine.CheckExit

/-! # The exit code of the commands that list something

The commands that list names or modules exit by a count: they compare how many reports there are,
one for each name of a unit, with how many files were collected.

* `analyzable` tells whether a file has references to list.
* **`value_analyzeUnits`**: the reports on files that can be read.
* **`length_reports_eq_iff`**: there are as many reports as files when all files are analyzable and
  none was collected twice.
* **`index_exit_eq`**: the exit code, and when it tells whether all files are analyzable. -/

namespace LuaGlobals.CommandLine

variable {world : World} {engine : Engine} {command : Command} {files : List FilePath}
  {path : FilePath}

/-! ## Reports -/

/-- A file has references to list: there is a listing, and it is well-formed. -/
def analyzable (engine : Engine) (command : Command) (path : FilePath) : Bool :=
  match analyzeUnit engine command path with
  | .ok analysis => analysis.value.isOk
  | .error _ => false

/-- The entry of a file in the reports, if it is analyzable. -/
def reportOf? (engine : Engine) (command : Command) (path : FilePath) :
    Option (String × ReferenceReport) :=
  match analyzeUnit engine command path with
  | .ok analysis => analysis.value.toOption.map fun report => (path.toString, report)
  | .error _ => none

/-- Files that can be read can be looked at. -/
theorem exists_analyzeUnit (command : Command) (hread : ∃ text, engine.tree.read path = .ok text) :
    ∃ analysis, analyzeUnit engine command path = .ok analysis := by
  obtain ⟨listing, hlisting⟩ := exists_readListing hread
  unfold analyzeUnit
  split
  · rw [hlisting]
    exact ⟨_, rfl⟩
  · exact ⟨_, rfl⟩

/-- **The reports on files that can be read** are put one after the other. -/
theorem value_analyzeUnits (hread : ∀ path ∈ files, ∃ text, engine.tree.read path = .ok text)
    (traced : Traced Reports) :
    ∃ after, analyzeUnits engine command traced files = (.ok (), after)
      ∧ after.value = Keyed.putAll traced.value (files.filterMap (reportOf? engine command)) := by
  induction files generalizing traced with
  | nil => exact ⟨traced, rfl, rfl⟩
  | cons path rest ih =>
      obtain ⟨hfirst, hrest⟩ := List.forall_mem_cons.mp hread
      obtain ⟨analysis, hanalysis⟩ := exists_analyzeUnit command hfirst
      rw [analyzeUnits, hanalysis]
      dsimp only
      obtain ⟨after, hafter, hvalue⟩ := ih hrest (do
        let reports ← traced
        let result ← analysis
        addReport reports path result)
      refine ⟨after, hafter, hvalue.trans ?_⟩
      rw [List.filterMap_cons, reportOf?, hanalysis]
      dsimp only
      show Keyed.putAll (addReport traced.value path analysis.value).value _ = _
      cases analysis.value with
      | error cause => rfl
      | ok report => rfl

/-- There is an entry, under the name of the file, exactly when the file is analyzable. -/
theorem map_fst_reportOf? (engine : Engine) (command : Command) (path : FilePath) :
    (reportOf? engine command path).map Prod.fst
      = if analyzable engine command path then some path.toString else none := by
  unfold reportOf? analyzable
  cases analyzeUnit engine command path with
  | error cause => rfl
  | ok analysis =>
      obtain ⟨result, -⟩ := analysis
      cases result <;> rfl

/-- The names in the reports are those of the analyzable files, each once. -/
theorem keys_reports :
    Keyed.keys (Keyed.putAll [] (files.filterMap (reportOf? engine command)))
      = ((files.filter (analyzable engine command)).map FilePath.toString).eraseDups := by
  rw [Keyed.keys_putAll_nil, Keyed.keys, List.map_filterMap]
  congr 1
  induction files with
  | nil => rfl
  | cons path rest ih =>
      rw [List.filterMap_cons, List.filter_cons, ih, map_fst_reportOf?]
      cases analyzable engine command path <;> rfl

/-- **There are as many reports as files** when all files are analyzable and none of them was
collected twice. -/
theorem length_reports_eq_iff (hproper : ∀ path ∈ files, path.Proper) :
    (Keyed.putAll [] (files.filterMap (reportOf? engine command))).length = files.length ↔
      (∀ path ∈ files, analyzable engine command path = true) ∧ files.Nodup := by
  have hlength : (Keyed.putAll [] (files.filterMap (reportOf? engine command))).length
      = ((files.filter (analyzable engine command)).map FilePath.toString).eraseDups.length := by
    rw [← keys_reports, Keyed.keys, List.length_map]
  have hkept := (eraseDups_sublist
    ((files.filter (analyzable engine command)).map FilePath.toString)).length_le
  rw [List.length_map] at hkept
  have hfewer := List.length_filter_le (analyzable engine command) files
  -- Reports go missing with files that are not analyzable, and with names that come again.
  have hsplit : (Keyed.putAll [] (files.filterMap (reportOf? engine command))).length = files.length
      ↔ (files.filter (analyzable engine command)).length = files.length
        ∧ ((files.filter (analyzable engine command)).map FilePath.toString).Nodup := by
    rw [← length_eraseDups_eq_iff, List.length_map, hlength]
    omega
  rw [hsplit, List.length_filter_eq_length_iff]
  refine and_congr_right fun hall => ?_
  rw [List.filter_eq_self.mpr hall]
  constructor
  · exact List.Nodup.of_map _
  · exact List.Nodup.map_on fun path hpath other hother =>
      FilePath.toString_injOn (hproper path hpath) (hproper other hother)

/-! ## Exit codes -/

/-- The options of a command that lists something. -/
def indexConfig (world : World) (command : Command) : Except ConfigError AnalysisConfig :=
  AnalysisConfig.load world.tree world.tree.workingPath
    ⟨(command.settings.last? .luac).toList.map fun text => ("luac", .text text), []⟩

/-- The engine of a command that lists something; it has no use for a whitelist. -/
def indexEngine (world : World) (config : AnalysisConfig) : Engine :=
  { config, whitelist := [], tree := world.tree, compile := world.compile }

/-- What the exit code of a command comes from that lists something: the number of the reports. -/
theorem exit_runIndex_eq {config : AnalysisConfig} {after : Traced Reports}
    (hconfig : indexConfig world command = .ok config)
    (hunits : analyzeUnits (indexEngine world config) command (pure [])
      (collectFiles world.tree command) = (.ok (), after)) :
    (runIndex world command).exit
      = .ok (exitCode (after.value.length == (collectFiles world.tree command).length)) := by
  unfold indexConfig at hconfig
  unfold indexEngine at hunits
  rw [runIndex]
  dsimp only
  rw [hconfig]
  dsimp only
  rw [hunits]
  rfl

/-- A second condition changes nothing at an exit code when it follows from the first. -/
theorem exitCode_and_eq_iff (first second : Bool) :
    exitCode (first && second) = exitCode first ↔ (first = true → second = true) := by
  cases first <;> cases second <;> decide

/-- **The exit code of the commands that list something.** Where the paths lead somewhere and the
options are valid, it is zero when every collected file is analyzable and none was collected twice,
and else one. So it tells whether all files are analyzable exactly when one of them is not, or none
was collected twice. -/
theorem index_exit_eq (hkind : command.kind ≠ .check) (htree : world.tree.Named)
    (hpaths : PathsExist world command) {config : AnalysisConfig}
    (hconfig : indexConfig world command = .ok config) :
    let files := collectFiles world.tree command
    let allAnalyzable := files.all (analyzable (indexEngine world config) command)
    (runCommand world command).exit = .ok (exitCode (allAnalyzable && decide files.Nodup))
      ∧ ((runCommand world command).exit = .ok (exitCode allAnalyzable) ↔
          (allAnalyzable = true → files.Nodup)) := by
  intro files allAnalyzable
  have hread : ∀ path ∈ files, ∃ text, (indexEngine world config).tree.read path = .ok text :=
    fun path => read_of_mem_collectFiles htree hpaths
  have hproper : ∀ path ∈ files, path.Proper := fun path => proper_of_mem_collectFiles htree
  obtain ⟨after, hafter, hvalue⟩ := value_analyzeUnits hread (pure [])
  have hcount : (after.value.length == files.length) = (allAnalyzable && decide files.Nodup) := by
    rw [hvalue, Bool.eq_iff_iff, beq_iff_eq, Bool.and_eq_true, decide_eq_true_eq,
      List.all_eq_true]
    exact length_reports_eq_iff hproper
  have hrun : runCommand world command = runIndex world command := by
    unfold runCommand
    cases hcommand : command.kind with
    | check => exact absurd hcommand hkind
    | xref => rfl
    | deps => rfl
  have hexit : (runCommand world command).exit
      = .ok (exitCode (allAnalyzable && decide files.Nodup)) := by
    rw [hrun, exit_runIndex_eq hconfig hafter, hcount]
  refine ⟨hexit, ?_⟩
  rw [hexit, Except.ok.injEq, exitCode_and_eq_iff, decide_eq_true_eq]

/-- A world with a listing. -/
def printWorld : World :=
  { tree := ⟨[], [(["a.lst"], .file printText)]⟩
    compile := fun _ => .notStarted "not found" }

/-- A listing that is given twice makes the listing of names exit with one, although it is fine. -/
theorem printWorld_exit_one :
    let command : Command := ⟨.xref, ["a.lst", "a.lst"], [(.listing, ""), (.json, "")]⟩
    printWorld.tree.Named ∧ PathsExist printWorld command
      ∧ (collectFiles printWorld.tree command).all
          (analyzable (indexEngine printWorld .standard) command) = true
      ∧ (runCommand printWorld command).exit = .ok 1 := by
  intro command
  have htree : printWorld.tree.Named := by decide +kernel
  have hpaths : PathsExist printWorld command := by decide +kernel
  have hconfig : indexConfig printWorld command = .ok .standard :=
    load_of_findProject_eq_none (by decide +kernel)
  have hfiles : collectFiles printWorld.tree command = [⟨0, ["a.lst"]⟩, ⟨0, ["a.lst"]⟩] := by
    decide +kernel
  have hanalyzable : analyzable (indexEngine printWorld .standard) command ⟨0, ["a.lst"]⟩
      = true := by
    have hread : readListing printWorld.tree ⟨0, ["a.lst"]⟩ = .ok printText :=
      readListing_joinLines rfl (by decide +kernel)
    have htree : (indexEngine printWorld .standard).tree = printWorld.tree := rfl
    rw [analyzable, analyzeUnit, if_pos (by decide), htree, hread]
    show ((analyzeListing printText).mapError AnalysisError.listing).isOk = true
    rw [analyzeListing_printText]
    rfl
  have hall : (collectFiles printWorld.tree command).all
      (analyzable (indexEngine printWorld .standard) command) = true := by
    rw [hfiles, List.all_cons, List.all_cons, hanalyzable]
    rfl
  have hrepeated : ¬(collectFiles printWorld.tree command).Nodup := by
    rw [hfiles]
    decide
  have hexit := (index_exit_eq (by decide) htree hpaths hconfig).1
  rw [hall, decide_eq_false hrepeated] at hexit
  exact ⟨htree, hpaths, hall, hexit⟩

end LuaGlobals.CommandLine
