import LuaGlobals.CommandLine.Run
import LuaGlobals.Proofs.Check.LogMarkup
import LuaGlobals.Proofs.Files.Collected

/-! # How a check ends

A check exits by the verdict of its batch, which keeps one result for each name of a unit. Different
files have different names, so that none of them is left out. What the host refuses to the check of
one file, though, ends all of it.

* `checkOf` and `passes` are the check of one file of a command for itself.
* **`success_checkUnits`**: the batch of a command succeeds when each of its files passes.
* `batchOf` is the batch of a check, and **`result_on_runCheck`** says how the check ends by it.
* **`batch_exact_up_to_refusal`** puts the account of batches together. -/

namespace LuaGlobals.CommandLine

open Engine

variable {world : World} {engine : Engine} {command : Command} {files : List FilePath}
  {path : FilePath} {host : Host}

/-! ## Collected files -/

/-- The paths of a command lead somewhere. -/
def PathsExist (world : World) (command : Command) : Prop :=
  ∀ name ∈ command.paths, world.tree.exists? (.ofString name) = true

instance (world : World) (command : Command) : Decidable (PathsExist world command) :=
  inferInstanceAs (Decidable (∀ name ∈ command.paths, world.tree.exists? (.ofString name) = true))

/-- The files of a command can be read when its paths lead somewhere. -/
theorem read_of_mem_collectFiles (htree : world.tree.Named) (hpaths : PathsExist world command)
    (h : path ∈ collectFiles world.tree command) : ∃ text, world.tree.read path = .ok text :=
  FileTree.read_of_mem_collectSources htree (List.forall_mem_map.mpr hpaths) h

/-- The files of a command have proper paths. -/
theorem proper_of_mem_collectFiles (htree : world.tree.Named)
    (h : path ∈ collectFiles world.tree command) : path.Proper :=
  FileTree.proper_of_mem_collectSources htree
    (List.forall_mem_map.mpr fun name _ => FilePath.proper_ofString name) h

/-- A file that can be read has a listing to be looked at. -/
theorem exists_readListing {tree : FileTree} (h : ∃ text, tree.read path = .ok text) :
    ∃ listing, readListing tree path = .ok listing := by
  obtain ⟨text, htext⟩ := h
  exact ⟨_, by rw [readListing, htext]; rfl⟩

/-! ## The check of one file -/

/-- The check of one file of a command, for itself. -/
def checkOf (engine : Engine) (command : Command) (path : FilePath) :
    Except FileError (Traced UnitResult) :=
  if command.settings.has .listing then checkListingFile engine path
  else .ok (engine.checkFile path)

/-- The check of a file can be made and succeeds. -/
def passes (engine : Engine) (command : Command) (path : FilePath) : Bool :=
  match checkOf engine command path with
  | .ok check => check.value.success
  | .error _ => false

/-- The first effect of the check of a file that a host refuses. -/
def refusedAt (host : Host) (engine : Engine) (command : Command) (path : FilePath) :
    Option Effect :=
  match checkOf engine command path with
  | .ok check => check.refused? host
  | .error _ => none

/-- The check of one file tells the spelling of its path. -/
theorem unit_checkOf {check : Traced UnitResult} (h : checkOf engine command path = .ok check) :
    check.value.unit = path.toString := by
  unfold checkOf at h
  split at h
  · obtain ⟨listing, -, rfl⟩ := map_eq_ok_iff.mp h
    exact engine.unit_checkListing _ _ _
  · obtain rfl := Except.ok.inj h
    exact engine.unit_checkFile path

/-- Files that can be read can be checked. -/
theorem exists_checkOf (command : Command)
    (hread : ∀ path ∈ files, ∃ text, engine.tree.read path = .ok text) :
    ∃ check : FilePath → Traced UnitResult,
      ∀ path ∈ files, checkOf engine command path = .ok (check path) := by
  refine ⟨fun path => (checkOf engine command path).toOption.getD (engine.checkFile path), ?_⟩
  intro path hpath
  obtain ⟨listing, hlisting⟩ := exists_readListing (hread path hpath)
  unfold checkOf checkListingFile
  dsimp only
  split
  · rw [hlisting]
    rfl
  · rfl

/-- The listings of a command are checked one for one. -/
theorem checkListings_eq {check : FilePath → Traced UnitResult}
    (hlisting : command.settings.has .listing = true)
    (h : ∀ path ∈ files, checkOf engine command path = .ok (check path)) :
    checkListings engine files = .ok (files.map check) := by
  induction files with
  | nil => rfl
  | cons path rest ih =>
      obtain ⟨hfirst, hrest⟩ := List.forall_mem_cons.mp h
      rw [checkOf, if_pos hlisting] at hfirst
      rw [checkListings, hfirst, ih hrest]
      rfl

/-- The batch of a command is that of the checks of its files. -/
theorem checkUnits_eq {check : FilePath → Traced UnitResult}
    (h : ∀ path ∈ files, checkOf engine command path = .ok (check path)) :
    checkUnits engine command files = .ok (collectResults .empty (files.map check)) := by
  unfold checkUnits
  split
  case isTrue hlisting =>
      rw [checkListings_eq hlisting h]
      rfl
  case isFalse hlisting =>
      have hmap : files.map engine.checkFile = files.map check := by
        refine List.map_congr_left fun path hpath => ?_
        have hcheck := h path hpath
        rw [checkOf, if_neg hlisting] at hcheck
        exact Except.ok.inj hcheck
      rw [checkFiles, hmap]

/-- **The batch of a command** succeeds when each of its files passes, and breaks off at the first
file at which something is refused. -/
theorem success_checkUnits (command : Command)
    (hread : ∀ path ∈ files, ∃ text, engine.tree.read path = .ok text)
    (hproper : ∀ path ∈ files, path.Proper) :
    ∃ batch, checkUnits engine command files = .ok batch
      ∧ batch.value.success = files.all (passes engine command)
      ∧ ∀ host, batch.refused? host = files.findSome? (refusedAt host engine command) := by
  obtain ⟨check, hcheck⟩ := exists_checkOf command hread
  refine ⟨_, checkUnits_eq hcheck, ?_, fun host => ?_⟩
  · rw [success_collectResults_map (fun path hpath => unit_checkOf (hcheck path hpath)) hproper]
    rw [Bool.eq_iff_iff, List.all_eq_true, List.all_eq_true]
    refine forall₂_congr fun path hpath => ?_
    rw [passes, hcheck path hpath]
  · rw [refused?_collectResults, List.findSome?_map, ← List.head?_filterMap, ← List.head?_filterMap]
    refine congrArg List.head? (List.filterMap_congr fun path hpath => ?_)
    rw [refusedAt, hcheck path hpath]
    rfl

/-! ## How a check ends -/

/-- An effect shows how a command goes on the whole. Any other effect is part of the check of one
file. -/
def IsOverview : Effect → Prop
  | .log record => record.level = .info ∨ record.level = .success
  | .print _ | .output _ => True
  | .execute _ | .probe _ | .read _ => False

/-- A host refuses nothing that shows how a command goes on the whole. -/
def ShowsOverview (host : Host) (outcome : Outcome) : Prop :=
  ∀ effect ∈ outcome.effects, IsOverview effect → host.refuses effect = false

/-- What a check shows at its end is about all of it. -/
theorem isOverview_of_mem_closing {json : Bool} {batch : BatchResult} :
    ∀ effect ∈ closing json batch, IsOverview effect := by
  unfold closing
  cases json with
  | true => exact List.forall_mem_singleton.mpr trivial
  | false =>
      refine List.forall_mem_append.mpr ⟨List.forall_mem_map.mpr fun _ _ => trivial, ?_⟩
      refine List.forall_mem_singleton.mpr ?_
      split
      · exact Or.inr rfl
      · exact trivial

/-- What is shown of a batch does not break it off. -/
theorem refused?_showBatch {json : Bool} {announced : LogRecord} {batch : Traced BatchResult}
    (hannounced : announced.level = .info)
    (hshown : ∀ effect ∈ (showBatch json announced batch).effects, IsOverview effect →
      host.refuses effect = false) :
    (showBatch json announced batch).refused? host = batch.refused? host := by
  have hbefore : (Traced.perform (if json then [] else [.log announced])).refused? host = none := by
    refine Traced.refused?_eq_none_iff.mpr fun effect hmem => ?_
    refine hshown effect (List.mem_append_left _ hmem) ?_
    cases json with
    | true => exact absurd hmem List.not_mem_nil
    | false =>
        obtain rfl := List.mem_singleton.mp hmem
        exact Or.inl hannounced
  have hbehind : (Traced.perform (closing json batch.value)).refused? host = none := by
    refine Traced.refused?_eq_none_iff.mpr fun effect hmem => ?_
    refine hshown effect ?_ (isOverview_of_mem_closing effect hmem)
    exact List.mem_append_right _ (List.mem_append_right _ (List.mem_append_left _ hmem))
  rw [showBatch, Traced.refused?_bind, hbefore, Option.none_or, Traced.refused?_bind,
    Traced.refused?_bind, hbehind, Option.none_or]
  exact Option.or_none

/-- A batch is announced as progress. -/
theorem level_of_announcedBatch {announced : LogRecord} {batch : Traced BatchResult}
    (h : announcedBatch world command = .ok (announced, batch)) : announced.level = .info := by
  obtain ⟨config, -, h⟩ := bind_eq_ok_iff.mp h
  obtain ⟨engine, -, h⟩ := bind_eq_ok_iff.mp h
  obtain ⟨checked, -, h⟩ := bind_eq_ok_iff.mp h
  obtain ⟨rfl, -⟩ := Prod.mk.inj (Except.ok.inj h)
  rfl

/-- No path of a command is missing when they all lead somewhere. -/
theorem missingPaths_eq_nil_iff : missingPaths world command = [] ↔ PathsExist world command := by
  rw [missingPaths, List.filter_eq_nil_iff, List.forall_mem_map, PathsExist]
  simp only [Bool.not_eq_true', Bool.not_eq_false]

/-- **How a check ends** whose paths lead somewhere: with the exit code for its batch, unless
something in that is refused. -/
theorem result_on_runCheck {announced : LogRecord} {batch : Traced BatchResult}
    (hpaths : PathsExist world command)
    (hbatch : announcedBatch world command = .ok (announced, batch))
    (hshown : ShowsOverview host (runCheck world command)) :
    ((runCheck world command).on host).result
      = (batch.refused? host).elim (.ok (.ok (exitCode batch.value.success))) .error := by
  have hrun : runCheck world command
      = (do return .ok (← showBatch (command.settings.has .json) announced batch)) := by
    rw [runCheck, if_pos (missingPaths_eq_nil_iff.mpr hpaths), hbatch]
  have heffects : (runCheck world command).effects
      = (showBatch (command.settings.has .json) announced batch).effects := by
    rw [hrun, Traced.effects_bind, Traced.effects_pure, List.append_nil]
  have hrefused : (runCheck world command).refused? host = batch.refused? host := by
    rw [ShowsOverview, heffects] at hshown
    rw [← refused?_showBatch (level_of_announcedBatch hbatch) hshown, Traced.refused?, heffects]
    rfl
  rw [Traced.on, hrefused, hrun]
  rfl

/-- An engine sees the files that it is made for. -/
theorem tree_of_ofConfig {config : AnalysisConfig} {tree : FileTree}
    {compile : String → ProcessResult} (h : Engine.ofConfig config tree compile = .ok engine) :
    engine.tree = tree := by
  obtain ⟨whitelist, -, hengine⟩ := bind_eq_ok_iff.mp h
  obtain rfl := Except.ok.inj hengine
  rfl

/-- Without a project and options nothing is set. -/
theorem load_of_findProject_eq_none {tree : FileTree} {start : FilePath}
    (h : findProject tree start = none) :
    AnalysisConfig.load tree start ⟨[], []⟩ = .ok .standard := by
  rw [AnalysisConfig.load, projectOptions, h]
  show (AnalysisConfig.ofSettings [("whitelist_files", .items [])]).mapError ConfigError.invalid = _
  rfl

/-- How a check ends whose paths lead somewhere and that has its options and its whitelist. -/
theorem result_on_runCheck_of_engine {config : AnalysisConfig} (htree : world.tree.Named)
    (hpaths : PathsExist world command)
    (hconfig : AnalysisConfig.load world.tree
      (projectStart world.tree (command.paths.map .ofString)) (checkOverrides command.settings)
        = .ok config)
    (hengine : Engine.ofConfig config world.tree world.compile = .ok engine)
    (hshown : ShowsOverview host (runCheck world command)) :
    let files := collectFiles world.tree command
    ((runCheck world command).on host).result
      = (files.findSome? (refusedAt host engine command)).elim
          (.ok (.ok (exitCode (files.all (passes engine command))))) .error := by
  intro files
  have hsees : engine.tree = world.tree := tree_of_ofConfig hengine
  have hread : ∀ path ∈ files, ∃ text, engine.tree.read path = .ok text :=
    fun path hpath => hsees ▸ read_of_mem_collectFiles htree hpaths hpath
  obtain ⟨batch, hbatch, hsuccess, hrefused⟩ := success_checkUnits command hread
    fun path hpath => proper_of_mem_collectFiles htree hpath
  have hannounced :
      announcedBatch world command = .ok (announcement config files.length, batch) := by
    rw [announcedBatch]
    dsimp only
    rw [hconfig]
    dsimp only [Except.mapError, bind, Except.bind]
    rw [hengine]
    dsimp only
    rw [hbatch]
    rfl
  rw [result_on_runCheck hpaths hannounced hshown, hsuccess, hrefused]

/-! ## Printing JSON -/

/-- The command that does not ask for JSON. -/
def Command.withoutJson (command : Command) : Command :=
  { command with settings := command.settings.filter fun setting => setting.1 ≠ .json }

/-- Options other than that for JSON stay. -/
theorem has_withoutJson {key : OptionKey} (hkey : key ≠ .json) (command : Command) :
    command.withoutJson.settings.has key = command.settings.has key := by
  rw [Command.withoutJson, Settings.has, Settings.has, List.any_filter]
  congr 1
  funext setting
  by_cases h : setting.1 = key <;> simp [h, hkey]

/-- Options other than that for JSON keep their values. -/
theorem values_withoutJson {key : OptionKey} (hkey : key ≠ .json) (command : Command) :
    command.withoutJson.settings.values key = command.settings.values key := by
  rw [Command.withoutJson, Settings.values, Settings.values, List.filter_filter]
  congr 2
  funext setting
  by_cases h : setting.1 = key <;> simp [h, hkey]

/-- Whether JSON is printed does not matter for the batch. -/
theorem announcedBatch_withoutJson (world : World) (command : Command) :
    announcedBatch world command.withoutJson = announcedBatch world command := by
  have hlisting : command.withoutJson.settings.has .listing = command.settings.has .listing :=
    has_withoutJson (by decide) command
  have hoverrides : checkOverrides command.withoutJson.settings
      = checkOverrides command.settings := by
    simp only [checkOverrides, Settings.last?, ne_eq, reduceCtorEq, not_false_eq_true,
      has_withoutJson, values_withoutJson]
  have hfiles : collectFiles world.tree command.withoutJson = collectFiles world.tree command := by
    rw [collectFiles, collectFiles, hlisting]
    rfl
  have hunits (engine : Engine) (files : List FilePath) :
      checkUnits engine command.withoutJson files = checkUnits engine command files := by
    rw [checkUnits, checkUnits, hlisting]
  unfold announcedBatch
  rw [hoverrides, hfiles]
  simp only [hunits]
  rfl

/-- **Whether JSON is printed does not matter** for how a check ends. -/
theorem result_on_runCheck_withoutJson (hshown : ShowsOverview host (runCheck world command))
    (hshown' : ShowsOverview host (runCheck world command.withoutJson)) :
    ((runCheck world command).on host).result
      = ((runCheck world command.withoutJson).on host).result := by
  have hmissing : missingPaths world command.withoutJson = missingPaths world command := rfl
  have hbatch := announcedBatch_withoutJson world command
  by_cases hpaths : PathsExist world command
  · have hpaths' : PathsExist world command.withoutJson := hpaths
    have hnone := missingPaths_eq_nil_iff.mpr hpaths
    rcases hannounced : announcedBatch world command with failure | ⟨announced, batch⟩
    · rw [runCheck, runCheck, hmissing, if_pos hnone, if_pos hnone, hbatch, hannounced]
    · rw [result_on_runCheck hpaths hannounced hshown,
        result_on_runCheck hpaths' (hbatch.trans hannounced) hshown']
  · have hsome := fun hnil => hpaths (missingPaths_eq_nil_iff.mp hnil)
    rw [runCheck, runCheck, hmissing, if_neg hsome, if_neg hsome]

/-- **Verdicts of batches, up to what is refused.** A batch of files has one result for each
spelling, in the order in which the spellings come first. The result of each file is that of its
check for itself, whatever becomes of the other files, and the batch succeeds exactly when the check
of each file does. So it ends, as long as the host refuses nothing in the check of any file. What is
refused in the check of one file ends the batch instead, and nothing is done for the files behind.
On a console that stumbles over nothing but live tags, it is a complaint about that file which
brings a tag.

A check whose paths lead somewhere, and that has its options and its whitelist, exits with zero when
each collected file passes and with one otherwise, for listings as for sources, again as long as
nothing is refused in the check of a file. What is refused first ends it instead. Neither depends on
whether it prints JSON. -/
theorem batch_exact_up_to_refusal (host : Host) :
    (∀ (engine : Engine) (names : List String),
      let paths := names.map FilePath.ofString
      let batch := engine.checkFiles paths
      Keyed.keys batch.value.units = (paths.map FilePath.toString).eraseDups
        ∧ (∀ path ∈ paths,
            Keyed.lookup? path.toString batch.value.units = some (engine.checkFile path).value)
        ∧ (batch.value.success = true ↔
            ∀ path ∈ paths, (engine.checkFile path).value.success = true)
        ∧ ((∀ path ∈ paths, (engine.checkFile path).refused? host = none) →
            batch.on host
              = ⟨.ok batch.value, paths.flatMap fun path => (engine.checkFile path).effects⟩)
        ∧ (∀ before path after effect, paths = before ++ path :: after →
            (∀ other ∈ before, (engine.checkFile other).refused? host = none) →
            (engine.checkFile path).refused? host = some effect →
              batch.on host
                = ⟨.error effect, before.flatMap (fun other => (engine.checkFile other).effects)
                    ++ ((engine.checkFile path).on host).effects⟩)
        ∧ ((∀ effect, host.refuses effect = true →
              ∃ record, effect = .log record ∧ Text.HasLiveTag record.message.toList) →
            ∀ path ∈ paths, ∀ effect, (engine.checkFile path).refused? host = some effect →
              ∃ complaint ∈ engine.fileComplaints path,
                effect = .log (complaint.record path.toString)
                  ∧ complaint.BringsTag path.toString))
      ∧ (∀ (world : World) (command : Command) (config : AnalysisConfig) (engine : Engine),
          world.tree.Named → PathsExist world command →
          AnalysisConfig.load world.tree
            (projectStart world.tree (command.paths.map .ofString))
            (checkOverrides command.settings) = .ok config →
          Engine.ofConfig config world.tree world.compile = .ok engine →
          ShowsOverview host (runCheck world command) →
            let files := collectFiles world.tree command
            ((runCheck world command).on host).result
              = (files.findSome? (refusedAt host engine command)).elim
                  (.ok (.ok (exitCode (files.all (passes engine command))))) .error)
      ∧ ∀ (world : World) (command : Command),
          ShowsOverview host (runCheck world command) →
          ShowsOverview host (runCheck world command.withoutJson) →
            ((runCheck world command).on host).result
              = ((runCheck world command.withoutJson).on host).result := by
  refine ⟨?_, ?_, ?_⟩
  · intro engine names paths batch
    have hunit : ∀ path ∈ paths, (engine.checkFile path).value.unit = path.toString :=
      fun path _ => engine.unit_checkFile path
    have hproper : ∀ path ∈ paths, path.Proper :=
      List.forall_mem_map.mpr fun name _ => FilePath.proper_ofString name
    have hunits := units_collectResults_map hunit hproper
    refine ⟨?_, ?_, ?_, ?_, ?_, ?_⟩
    · show Keyed.keys (collectResults .empty (paths.map engine.checkFile)).value.units = _
      rw [hunits, Keyed.keys, List.map_map]
      exact List.map_id _
    · intro path hpath
      show Keyed.lookup? _ (collectResults .empty (paths.map engine.checkFile)).value.units = _
      rw [hunits, Keyed.lookup?_map, if_pos, FilePath.ofString_toString (hproper path hpath)]
      exact List.mem_eraseDups.mpr (List.mem_map_of_mem hpath)
    · show (collectResults .empty (paths.map engine.checkFile)).value.success = true ↔ _
      rw [success_collectResults_map hunit hproper, List.all_eq_true]
    · intro hpaths
      rw [← List.flatMap_map]
      exact on_collectResults (List.forall_mem_map.mpr hpaths) .empty
    · intro before path after effect hsplit hbefore hpath
      show (collectResults .empty (paths.map engine.checkFile)).on host = _
      rw [hsplit, List.map_append, List.map_cons,
        on_collectResults_of_refused (List.forall_mem_map.mpr hbefore) hpath, List.flatMap_map]
    · exact fun hhost path _ effect hrefused => engine.exists_complaint_of_refused? hhost hrefused
  · intro world command config engine htree hpaths hconfig hengine hshown
    exact result_on_runCheck_of_engine htree hpaths hconfig hengine hshown
  · intro world command hshown hshown'
    exact result_on_runCheck_withoutJson hshown hshown'

/-! ## A batch that is broken off -/

/-- A host whose console refuses a message that starts with a closing tag, since no tag is open. -/
def closingTagHost : Host where
  refuses
    | .log record =>
      match record.message.toList with
      | '[' :: '/' :: rest => Text.startsTag ('/' :: rest)
      | _ => false
    | _ => false

/-- What the console refuses is a live tag. -/
theorem hasLiveTag_of_closingTagHost {effect : Effect} (h : closingTagHost.refuses effect = true) :
    ∃ record, effect = .log record ∧ Text.HasLiveTag record.message.toList := by
  cases effect with
  | log record =>
      refine ⟨record, rfl, Text.hasLiveTag_iff.mpr ?_⟩
      unfold closingTagHost at h
      dsimp only at h
      split at h
      · rename_i rest hmessage
        rw [hmessage]
        exact Text.atBracket_cons.mpr (Or.inl ⟨rfl, h, rfl⟩)
      · exact absurd h Bool.false_ne_true
  | _ => exact absurd h Bool.false_ne_true

/-- A host on which one file holds no text. -/
def withoutText (path : FilePath) : Host where
  refuses effect := effect == .read path

/-- That file is the only one that cannot be read. -/
theorem refuses_read_withoutText {path other : FilePath} :
    (withoutText path).refuses (.read other) = true ↔ other = path := by
  show (Effect.read other == .read path) = true ↔ _
  rw [beq_iff_eq, Effect.read.injEq]

/-- A file without text keeps nothing from being shown of a command. -/
theorem showsOverview_withoutText (path : FilePath) (outcome : Outcome) :
    ShowsOverview (withoutText path) outcome := by
  intro effect _ hoverview
  cases effect with
  | read other => exact absurd hoverview not_false
  | _ => rfl

/-- The lines of the listing of a unit that reads one standard global. -/
def printLines : List (List Char) :=
  ["main <a.lua:0,0> (2 instructions, 8 bytes at 0x1)",
    "0+ params, 2 slots, 0 upvalues, 0 locals, 1 constant, 0 functions",
    "\t1\t[1]\tGETGLOBAL\t0 -1\t; print",
    "\t2\t[1]\tRETURN   \t0 1",
    "constants (1) for 0x1:",
    "\t1\t\"print\"",
    "locals (0) for 0x1:",
    "upvalues (0) for 0x1:"].map String.toList

/-- The main chunk of the unit. -/
def printMain : FunctionListing :=
  { kind := .main
    source := "a.lua"
    lineDefined := 0
    instructions := [
      ⟨1, 1, "GETGLOBAL", some 0, some (-1), none, some "print", none⟩,
      ⟨2, 1, "RETURN", some 0, some 1, none, none, none⟩]
    scope := ⟨[], []⟩ }

/-- What the unit touches. -/
def printReport : ReferenceReport :=
  { ReferenceReport.empty with references := [⟨1, "print", false⟩] }

/-- The text of the listing. -/
def printText : String := String.ofList (Text.joinLines printLines)

/-- The report on the unit. -/
theorem analyzeListing_printText : analyzeListing printText = .ok printReport := by
  have hbreaks : (printLines.all fun line => line.all fun c => !Text.isLineBreak c) = true := by
    decide +kernel
  have hread : readFunctions ⟨printLines, 0⟩ = ([printMain], none) := by decide +kernel
  have hreport : (resolveFunctions [printMain]).report = printReport := by decide
  rw [printText, analyzeListing_joinLines hbreaks, hread]
  exact congrArg Except.ok hreport

/-- A text that is no listing. -/
def junkText : String := String.ofList (Text.joinLines ["junk".toList])

/-- There is no report on it. -/
theorem analyzeListing_junkText : ∃ error, analyzeListing junkText = .error error := by
  have hbreaks :
      (["junk".toList].all fun line => line.all fun c => !Text.isLineBreak c) = true := by
    decide +kernel
  have hread : (readFunctions ⟨["junk".toList], 0⟩).2.isSome = true := by decide +kernel
  obtain ⟨error, herror⟩ := Option.isSome_iff_exists.mp hread
  rw [junkText, analyzeListing_joinLines hbreaks]
  rcases hreading : readFunctions ⟨["junk".toList], 0⟩ with ⟨functions, error?⟩
  rw [hreading] at herror
  obtain rfl : error? = some error := herror
  exact ⟨error, rfl⟩

/-- A world with a listing and a file that is none, and a compiler that fails with a message that
ends a tag. -/
def junkWorld : World :=
  { tree := ⟨[], [(["a.lst"], .file printText), (["b.lst"], .file junkText)]⟩
    compile := fun _ => .finished 1 "" "luac: x:1: '=' expected near ']'" }

/-- The engine for it, without options. -/
def junkEngine : Engine :=
  ⟨.standard, Whitelist.standardGlobals 1, junkWorld.tree, junkWorld.compile⟩

/-- A check of the listing, twice, and of the other file. -/
def junkCommand : Command :=
  ⟨.check, ["a.lst", "b.lst", "a.lst"], [(.listing, ""), (.json, "")]⟩

/-- A file without carriage returns is read as it is. -/
theorem readListing_joinLines {tree : FileTree} {lines : List (List Char)}
    (hread : tree.read path = .ok (String.ofList (Text.joinLines lines)))
    (hlines : '\r' ∉ Text.joinLines lines) :
    readListing tree path = .ok (String.ofList (Text.joinLines lines)) := by
  have hunified {text : List Char} (htext : '\r' ∉ text) : Text.unifyLineBreaks text = text := by
    induction text with
    | nil => rfl
    | cons c rest ih =>
        rw [List.mem_cons, not_or] at htext
        rw [Text.unifyLineBreaks, if_neg (Ne.symm htext.1), ih htext.2]
        exact fun _ hreturn => absurd hreturn (Ne.symm htext.1)
  rw [readListing, hread]
  show Except.ok (String.ofList (Text.unifyLineBreaks (String.ofList _).toList)) = _
  rw [String.toList_ofList, hunified hlines]

/-- The listing passes, and its check does nothing but read it. -/
theorem checkOf_printText :
    checkOf junkEngine junkCommand ⟨0, ["a.lst"]⟩
      = .ok ⟨.clean "a.lst", [.read ⟨0, ["a.lst"]⟩]⟩ := by
  have hread : readListing junkWorld.tree ⟨0, ["a.lst"]⟩ = .ok printText :=
    readListing_joinLines rfl (by decide +kernel)
  have hjudged : (evaluate junkEngine.config.scoping junkEngine.whitelist "a.lst" printReport []).1
      = .clean "a.lst" := by decide +kernel
  rw [checkOf, if_pos (by decide), checkListingFile,
    show junkEngine.tree = junkWorld.tree from rfl, hread]
  show Except.ok (do
    Traced.perform [.read ⟨0, ["a.lst"]⟩]
    junkEngine.checkListingIn "a.lst" printText ⟨0, []⟩) = _
  rw [checkListingIn, analyzeListing_printText, ← hjudged]
  rfl

/-- The other file fails, after it was read. -/
theorem checkOf_junkText : ∃ message,
    checkOf junkEngine junkCommand ⟨0, ["b.lst"]⟩ = .ok (do
      Traced.perform [.read ⟨0, ["b.lst"]⟩]
      failed "b.lst" message) := by
  have hread : readListing junkWorld.tree ⟨0, ["b.lst"]⟩ = .ok junkText :=
    readListing_joinLines rfl (by decide +kernel)
  obtain ⟨error, herror⟩ := analyzeListing_junkText
  refine ⟨"malformed listing: " ++ error.message, ?_⟩
  rw [checkOf, if_pos (by decide), checkListingFile,
    show junkEngine.tree = junkWorld.tree from rfl, hread]
  show Except.ok (do
    Traced.perform [.read ⟨0, ["b.lst"]⟩]
    junkEngine.checkListingIn "b.lst" junkText ⟨0, []⟩) = _
  rw [checkListingIn, herror]

/-- One of the files fails. -/
theorem all_passes_junkCommand :
    [⟨0, ["a.lst"]⟩, ⟨0, ["b.lst"]⟩, ⟨0, ["a.lst"]⟩].all (passes junkEngine junkCommand)
      = false := by
  obtain ⟨message, hjunk⟩ := checkOf_junkText
  simp only [List.all_cons, passes, checkOf_printText, hjunk]
  rfl

/-- The listing has to be read. -/
theorem refusedAt_printText {path : FilePath} (hpath : ⟨0, ["a.lst"]⟩ ≠ path) :
    refusedAt (withoutText path) junkEngine junkCommand ⟨0, ["a.lst"]⟩ = none := by
  rw [refusedAt, checkOf_printText]
  exact List.find?_cons_of_neg fun hread => hpath (refuses_read_withoutText.mp hread)

/-- The other file has to be read before it fails. -/
theorem refusedAt_junkText (path : FilePath) :
    refusedAt (withoutText path) junkEngine junkCommand ⟨0, ["b.lst"]⟩
      = if ⟨0, ["b.lst"]⟩ = path then some (.read path) else none := by
  obtain ⟨message, hjunk⟩ := checkOf_junkText
  rw [refusedAt, hjunk]
  by_cases hpath : ⟨0, ["b.lst"]⟩ = path
  · rw [if_pos hpath, ← hpath]
    exact List.find?_cons_of_pos (refuses_read_withoutText.mpr rfl)
  · rw [if_neg hpath]
    exact List.find?_cons_of_neg fun hread => hpath (refuses_read_withoutText.mp hread)

/-- The compiler's message ends the tag that the name of a file opens. -/
theorem effects_checkFile_junkEngine :
    (junkEngine.checkFile (.ofString "[/x.lua")).effects
      = [.execute ["luac", "-p", "-l", "-l", "[/x.lua"], .log ⟨.error,
          "[/x.lua: cannot disassemble: luac: x:1: '=' expected near ']'"⟩] := by
  decide +kernel

/-- A file whose name opens a closing tag keeps another one from being compiled. A check of
listings, one of them twice and one of them junk, exits with one, also without JSON, unless that
file holds no text. -/
theorem junkWorld_breaks_off :
    let batch := junkEngine.checkFiles (["[/x.lua", "b.lua"].map FilePath.ofString)
    batch.on closingTagHost
        = ⟨.error (.log ⟨.error,
            "[/x.lua: cannot disassemble: luac: x:1: '=' expected near ']'"⟩),
          [.execute ["luac", "-p", "-l", "-l", "[/x.lua"]]⟩
      ∧ (∃ complaint ∈ junkEngine.fileComplaints (.ofString "[/x.lua"),
          complaint.BringsTag (FilePath.ofString "[/x.lua").toString)
      ∧ ((runCheck junkWorld junkCommand).on (withoutText ⟨0, ["c.lst"]⟩)).result = .ok (.ok 1)
      ∧ ((runCheck junkWorld junkCommand.withoutJson).on (withoutText ⟨0, ["c.lst"]⟩)).result
          = .ok (.ok 1)
      ∧ ((runCheck junkWorld junkCommand).on (withoutText ⟨0, ["b.lst"]⟩)).result
          = .error (.read ⟨0, ["b.lst"]⟩) := by
  intro batch
  -- The batch of sources: the message on the first one is refused.
  obtain ⟨-, -, -, -, hrefused, htagged⟩ :=
    (batch_exact_up_to_refusal closingTagHost).1 junkEngine ["[/x.lua", "b.lua"]
  have htag : closingTagHost.refuses (.log ⟨.error,
      "[/x.lua: cannot disassemble: luac: x:1: '=' expected near ']'"⟩) = true := by decide +kernel
  have hfirst : (junkEngine.checkFile (.ofString "[/x.lua")).refused? closingTagHost
      = some (.log ⟨.error, "[/x.lua: cannot disassemble: luac: x:1: '=' expected near ']'"⟩) := by
    rw [Traced.refused?, effects_checkFile_junkEngine, List.find?_cons_of_neg Bool.false_ne_true,
      List.find?_cons_of_pos htag]
  have hdone : ((junkEngine.checkFile (.ofString "[/x.lua")).on closingTagHost).effects
      = [.execute ["luac", "-p", "-l", "-l", "[/x.lua"]] := by
    rw [Traced.on, effects_checkFile_junkEngine, List.takeWhile_cons_of_pos rfl,
      List.takeWhile_cons_of_neg (by rw [htag]; decide)]
  have hbatch := hrefused [] (.ofString "[/x.lua") [.ofString "b.lua"] _ rfl
    (fun _ hmem => absurd hmem List.not_mem_nil) hfirst
  rw [hdone] at hbatch
  obtain ⟨complaint, hcomplaint, -, hbrings⟩ := htagged
    (fun effect => hasLiveTag_of_closingTagHost) _ List.mem_cons_self _ hfirst
  -- The check of listings, on a host that may refuse to read one of them.
  have hfiles : collectFiles junkWorld.tree junkCommand
      = [⟨0, ["a.lst"]⟩, ⟨0, ["b.lst"]⟩, ⟨0, ["a.lst"]⟩] := by decide +kernel
  have hresult (path : FilePath) := (batch_exact_up_to_refusal (withoutText path)).2.1
    junkWorld junkCommand .standard junkEngine (by decide +kernel) (by decide +kernel)
    (load_of_findProject_eq_none (by decide +kernel)) rfl (showsOverview_withoutText _ _)
  dsimp only at hresult
  rw [hfiles, all_passes_junkCommand] at hresult
  have hexit : ((runCheck junkWorld junkCommand).on (withoutText ⟨0, ["c.lst"]⟩)).result
      = .ok (.ok 1) := by
    rw [hresult, List.findSome?_eq_none_iff.mpr]
    · rfl
    · simp only [List.forall_mem_cons]
      exact ⟨refusedAt_printText (by decide), (refusedAt_junkText _).trans (if_neg (by decide)),
        refusedAt_printText (by decide), fun _ hmem => absurd hmem List.not_mem_nil⟩
  refine ⟨hbatch, ⟨complaint, hcomplaint, hbrings⟩, hexit, ?_, ?_⟩
  · have hjson := (batch_exact_up_to_refusal (withoutText ⟨0, ["c.lst"]⟩)).2.2 junkWorld junkCommand
    rw [← hjson (showsOverview_withoutText _ _) (showsOverview_withoutText _ _), hexit]
  · rw [hresult, List.findSome?_cons, refusedAt_printText (by decide)]
    dsimp only
    rw [List.findSome?_cons, refusedAt_junkText, if_pos rfl]
    rfl

end LuaGlobals.CommandLine
