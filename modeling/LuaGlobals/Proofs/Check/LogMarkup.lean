import LuaGlobals.Proofs.Check.Batch
import LuaGlobals.Proofs.Listing.Partition
import LuaGlobals.Proofs.Module.Loadable
import LuaGlobals.Proofs.Text.Markup
import Mathlib.Logic.Basic

/-! # Markup in the messages of a check

A check writes to the console why a unit cannot be analyzed, and which modules it could not resolve.
The messages are put together from the name of the unit and from texts of the program. Those on
modules hold these texts as they are; the others hold them escaped, each for itself.

* `Complaint` is what a message says; `Complaint.BringsTag` tells when its texts make a live tag.
* **`hasLiveTag_record_iff`**: whether a message holds a live tag.
* `Engine.complaints` and `Engine.fileComplaints` are what a check complains about.
* **`Engine.exists_complaint_of_refused?`**: which messages break off a check on a console that
  stumbles over tags.
* **`live_tag_logged_iff`**: when a check writes a live tag to the console. -/

namespace LuaGlobals

open Text

/-! ## Messages -/

/-- Why a check writes to the console. -/
inductive Complaint where
  /-- The unit cannot be analyzed. -/
  | failed (message : String)
  /-- A module that the unit requires cannot be resolved. -/
  | unresolved (requirement : Requirement) (reason : String)
deriving DecidableEq, Repr

namespace Complaint

/-- The message on a unit. -/
def record (unit : String) : Complaint → LogRecord
  | .failed message =>
    { level := .error, message := escapeMarkupString unit ++ ": " ++ escapeMarkupString message }
  | .unresolved requirement reason => requireLog unit requirement reason

/-- The texts of a message hold a live tag or put one together. Of the texts that are escaped, only
the ends matter: the name of the unit opens a tag and what went wrong closes it. -/
def BringsTag (unit : String) : Complaint → Prop
  | .failed message => OpensTag unit.toList ∧ ClosesTag message.toList
  | .unresolved requirement reason =>
    HasLiveTag unit.toList ∨ HasLiveTag requirement.moduleName.toList ∨ HasLiveTag reason.toList
      ∨ (OpensTag requirement.moduleName.toList ∧ ClosesTag reason.toList)
      ∨ (OpensTag unit.toList ∧ ClosesTag (requirement.moduleName ++ "': " ++ reason).toList)

end Complaint

/-- The number of a line has no bracket. -/
theorem bracket_not_mem_line (line : Int) :
    '[' ∉ (toString line).toList ∧ ']' ∉ (toString line).toList := by
  have hdigits (number : Nat) :
      '[' ∉ (toString number).toList ∧ ']' ∉ (toString number).toList := by
    have hdigit : ∀ c ∈ (toString number).toList, c.isDigit = true := by
      rw [Nat.toString_eq_repr, Nat.toList_repr]
      exact fun c => Nat.isDigit_of_mem_toDigits (by decide) (by decide)
    exact ⟨fun h => absurd (hdigit _ h) (by decide), fun h => absurd (hdigit _ h) (by decide)⟩
  cases line with
  | ofNat number => exact hdigits number
  | negSucc number =>
      have hsign : (toString (Int.negSucc number)).toList
          = '-' :: (toString (number + 1)).toList := by
        show ("-" ++ toString (number + 1)).toList = _
        simp
      obtain ⟨hopen, hclose⟩ := hdigits (number + 1)
      rw [hsign]
      exact ⟨List.not_mem_cons_of_ne_of_not_mem (by decide) hopen,
        List.not_mem_cons_of_ne_of_not_mem (by decide) hclose⟩

/-- The line between a unit and a module keeps their tags apart. -/
theorem separates_line (line : Int) :
    Separates (":" ++ toString line ++ ": cannot resolve module '").toList := by
  obtain ⟨hopen, hclose⟩ := bracket_not_mem_line line
  have htext : (":" ++ toString line ++ ": cannot resolve module '").toList
      = ':' :: ((toString line).toList ++ ": cannot resolve module '".toList) := by simp
  rw [htext]
  have hlast : '\''
      ∈ (':' :: ((toString line).toList ++ ": cannot resolve module '".toList)).getLast? := by
    rw [← List.cons_append, List.getLast?_append]
    rfl
  refine ⟨⟨':', rfl, by decide⟩, ⟨'\'', hlast, by decide⟩, ?_, ?_⟩
  · rw [List.mem_cons, List.mem_append, not_or, not_or]
    exact ⟨by decide, hopen, by decide⟩
  · rw [List.mem_cons, List.mem_append, not_or, not_or]
    exact ⟨by decide, hclose, by decide⟩

/-- **Whether a message holds a live tag** is settled by the texts that it is put together from. -/
theorem hasLiveTag_record_iff (unit : String) (complaint : Complaint) :
    HasLiveTag (complaint.record unit).message.toList ↔ complaint.BringsTag unit := by
  cases complaint with
  | failed message =>
      have hsep : Separates ": ".toList :=
        ⟨⟨':', rfl, by decide⟩, ⟨' ', rfl, by decide⟩, by decide, by decide⟩
      have htext : (Complaint.record unit (.failed message)).message.toList
          = escapeMarkup unit.toList ++ (": ".toList ++ escapeMarkup message.toList) := by
        simp [Complaint.record, escapeMarkupString]
      rw [htext, hasLiveTag_separated hsep, opensTag_escapeMarkup, closesTag_escapeMarkup]
      constructor
      · rintro (hunit | hmessage | hacross)
        · exact absurd hunit (not_hasLiveTag_escapeMarkup _)
        · exact absurd hmessage (not_hasLiveTag_escapeMarkup _)
        · exact hacross
      · exact fun hacross => Or.inr (Or.inr hacross)
  | unresolved requirement reason =>
      have hsep : Separates "': ".toList :=
        ⟨⟨'\'', rfl, by decide⟩, ⟨' ', rfl, by decide⟩, by decide, by decide⟩
      have htext : (Complaint.record unit (.unresolved requirement reason)).message.toList
          = unit.toList
            ++ ((":" ++ toString requirement.line ++ ": cannot resolve module '").toList
              ++ (requirement.moduleName.toList ++ ("': ".toList ++ reason.toList))) := by
        simp [Complaint.record, requireLog]
      have hrest : (requirement.moduleName ++ "': " ++ reason).toList
          = requirement.moduleName.toList ++ ("': ".toList ++ reason.toList) := by simp
      rw [htext, hasLiveTag_separated (separates_line requirement.line), hasLiveTag_separated hsep,
        Complaint.BringsTag, hrest]
      simp only [or_assoc]

/-! ## Checks -/

/-- Some message holds a live tag. -/
def HasLiveMarkup (logs : List LogRecord) : Prop :=
  ∃ record ∈ logs, HasLiveTag record.message.toList

/-- The messages on a unit hold a live tag exactly when some complaint brings one. -/
theorem hasLiveMarkup_map_record (unit : String) (complaints : List Complaint) :
    HasLiveMarkup (complaints.map (·.record unit)) ↔
      ∃ complaint ∈ complaints, complaint.BringsTag unit := by
  simp only [HasLiveMarkup, List.mem_map, exists_exists_and_eq_and, hasLiveTag_record_iff]

namespace Engine

/-- What the check of a listing complains about. -/
def complaints (engine : Engine) (text : String) (directory : FilePath) : List Complaint :=
  match analyzeListing text with
  | .error cause => [.failed ("malformed listing: " ++ cause.message)]
  | .ok report =>
    let outcomes := (engine.resolveModules directory report).map (·.value)
    (unresolved engine.config.scoping outcomes).map
      fun (requirement, reason) => .unresolved requirement reason

/-- What the check of a source file complains about. -/
def fileComplaints (engine : Engine) (path : FilePath) : List Complaint :=
  match engine.listing path with
  | .error cause => [.failed ("cannot disassemble: " ++ cause.message)]
  | .ok text => engine.complaints text path.parent

variable (engine : Engine)

/-- Finding the exports of modules writes nothing to the console. -/
theorem logs_of_mem_resolveEach {loader : ModuleLoader} {requirements : List Requirement}
    {state : LoaderState} :
    ∀ resolving ∈ engine.resolveEach loader requirements state, resolving.logs = [] := by
  induction requirements generalizing state with
  | nil => exact fun _ hmem => absurd hmem List.not_mem_nil
  | cons requirement rest ih =>
      refine List.forall_mem_cons.mpr ⟨?_, ih⟩
      rw [Traced.logs, Engine.loading, List.filterMap_append, List.filterMap_map,
        List.filterMap_map]
      exact List.append_eq_nil_iff.mpr
        ⟨List.filterMap_eq_nil_iff.mpr fun _ _ => rfl, List.filterMap_eq_nil_iff.mpr fun _ _ => rfl⟩

/-- What becomes of each requirement is told in turn. -/
theorem logs_tellOutcomes {unit : String} {resolvings : List (Traced RequirementOutcome)}
    (hsilent : ∀ resolving ∈ resolvings, resolving.logs = []) :
    (tellOutcomes unit resolvings).logs
      = (resolvings.map (·.value)).flatMap (requireLogs unit) := by
  induction resolvings with
  | nil => rfl
  | cons resolving rest ih =>
      obtain ⟨hfirst, hrest⟩ := List.forall_mem_cons.mp hsilent
      rw [tellOutcomes, Traced.logs_bind, hfirst, List.nil_append, Traced.logs_bind,
        Traced.logs_perform, Traced.logs_bind, Traced.logs_pure, List.append_nil, ih hrest,
        List.map_cons, List.flatMap_cons]

/-- The messages about requirements are those of the policy. -/
theorem logs_evaluate {options : ScopingOptions} (hload : options.loadRequires = true)
    (base : Whitelist.Entries) (unit : String) (report : ReferenceReport)
    (outcomes : List RequirementOutcome) :
    (evaluate options base unit report outcomes).2 = outcomes.flatMap (requireLogs unit) := by
  show (unresolved options outcomes).map (fun failure => requireLog unit failure.1 failure.2) = _
  rw [unresolved, if_pos hload]
  induction outcomes with
  | nil => rfl
  | cons outcome rest ih =>
      obtain ⟨requirement, surface⟩ := outcome
      cases surface with
      | ok exports => exact ih
      | error reason => exact congrArg (requireLog unit requirement reason :: ·) ih

/-- **A unit writes the messages of the policy** on its requirements. -/
theorem logs_judgeUnit (unit : String) (directory : FilePath) (report : ReferenceReport) :
    (engine.judgeUnit unit directory report).logs
      = (evaluate engine.config.scoping engine.whitelist unit report
          ((engine.resolveModules directory report).map (·.value))).2 := by
  rw [judgeUnit, Traced.logs_bind, Traced.logs_pure, List.append_nil, resolveModules]
  cases hload : engine.config.scoping.loadRequires with
  | true => rw [if_pos rfl, logs_tellOutcomes engine.logs_of_mem_resolveEach, logs_evaluate hload]
  | false =>
      show [] = (unresolved engine.config.scoping []).map _
      rw [unresolved, hload]
      rfl

/-- The messages of the check of a listing. -/
theorem logs_checkListingIn (unit text : String) (directory : FilePath) :
    (engine.checkListingIn unit text directory).logs
      = (engine.complaints text directory).map (·.record unit) := by
  rw [checkListingIn, complaints]
  cases analyzeListing text with
  | error cause => rfl
  | ok report =>
      dsimp only
      rw [logs_judgeUnit, List.map_map]
      rfl

/-- The messages of the check of a source file. -/
theorem logs_checkFile (path : FilePath) :
    (engine.checkFile path).logs = (engine.fileComplaints path).map (·.record path.toString) := by
  rw [checkFile, fileComplaints]
  cases engine.listing path with
  | error cause => rfl
  | ok text => exact engine.logs_checkListingIn path.toString text path.parent

/-- **What breaks off the check of a source file** on a host that refuses nothing but messages with
live tags is a complaint that brings one. -/
theorem exists_complaint_of_refused? {host : Host}
    (hhost : ∀ effect, host.refuses effect = true →
      ∃ record, effect = .log record ∧ HasLiveTag record.message.toList)
    {path : FilePath} {effect : Effect} (h : (engine.checkFile path).refused? host = some effect) :
    ∃ complaint ∈ engine.fileComplaints path,
      effect = .log (complaint.record path.toString) ∧ complaint.BringsTag path.toString := by
  have hlogs : ∀ effect, host.refuses effect = true → ∃ record, effect = .log record :=
    fun effect hrefused => (hhost effect hrefused).imp fun _ => And.left
  rw [Traced.refused?_eq_find?_logs hlogs, engine.logs_checkFile, List.map_map] at h
  obtain ⟨complaint, hcomplaint, rfl⟩ := List.mem_map.mp (List.mem_of_find?_eq_some h)
  obtain ⟨record, hrecord, hlive⟩ := hhost _ (List.find?_some h)
  obtain rfl := Effect.log.inj hrecord
  exact ⟨complaint, hcomplaint, rfl, (hasLiveTag_record_iff _ _).mp hlive⟩

/-- The messages of the checks of several source files. -/
theorem mem_logs_checkFiles {record : LogRecord} {paths : List FilePath} :
    record ∈ (engine.checkFiles paths).logs ↔
      ∃ path ∈ paths, record ∈ (engine.checkFile path).logs := by
  rw [checkFiles, logs_collectResults, List.mem_flatMap]
  simp only [List.mem_map, exists_exists_and_eq_and]

end Engine

/-- **When a check writes a live tag to the console.** For a unit that cannot be analyzed, exactly
when the name of the unit opens a tag that the text on what went wrong closes. For a module that
cannot be resolved, exactly when the name of the unit, the name of the module or the reason holds a
live tag, or one of them opens a tag that is closed behind it. A check of several files writes one
exactly when the check of some file does. -/
theorem live_tag_logged_iff (engine : Engine) :
    (∀ unit text directory,
      HasLiveMarkup (engine.checkListing unit text directory).logs ↔
        ∃ complaint ∈ engine.complaints text (directory.getD engine.tree.workingPath),
          complaint.BringsTag unit)
      ∧ (∀ path, HasLiveMarkup (engine.checkFile path).logs ↔
          ∃ complaint ∈ engine.fileComplaints path, complaint.BringsTag path.toString)
      ∧ ∀ paths, HasLiveMarkup (engine.checkFiles paths).logs ↔
          ∃ path ∈ paths, ∃ complaint ∈ engine.fileComplaints path,
            complaint.BringsTag path.toString := by
  have hfile (path : FilePath) : HasLiveMarkup (engine.checkFile path).logs ↔
      ∃ complaint ∈ engine.fileComplaints path, complaint.BringsTag path.toString := by
    rw [engine.logs_checkFile, hasLiveMarkup_map_record]
  refine ⟨?_, hfile, ?_⟩
  · intro unit text directory
    rw [Engine.checkListing, engine.logs_checkListingIn, hasLiveMarkup_map_record]
  · intro paths
    constructor
    · rintro ⟨record, hrecord, hlive⟩
      obtain ⟨path, hpath, hrecord⟩ := engine.mem_logs_checkFiles.mp hrecord
      exact ⟨path, hpath, (hfile path).mp ⟨record, hrecord, hlive⟩⟩
    · rintro ⟨path, hpath, hcomplaint⟩
      obtain ⟨record, hrecord, hlive⟩ := (hfile path).mpr hcomplaint
      exact ⟨record, engine.mem_logs_checkFiles.mpr ⟨path, hpath, hrecord⟩, hlive⟩

/-- The report on a text of given lines is that on what is read from them. -/
theorem analyzeListing_joinLines {lines : List (List Char)}
    (hbreaks : (lines.all fun line => line.all fun c => !isLineBreak c) = true) :
    analyzeListing (String.ofList (joinLines lines)) =
      match readFunctions ⟨lines, 0⟩ with
      | (_, some error) => .error error
      | (functions, none) => .ok (resolveFunctions functions).report := by
  simp only [List.all_eq_true, Bool.not_eq_true'] at hbreaks
  rw [analyzeListing, resolveListing, ofText_eq, String.toList_ofList, splitLines_joinLines hbreaks]
  rcases readFunctions ⟨lines, 0⟩ with ⟨functions, _ | error⟩ <;> rfl

/-- The lines of the listing of a unit that requires a module whose name is a tag. -/
def taggedLines : List (List Char) :=
  ["main <u.lua:0,0> (4 instructions, 16 bytes at 0x1)",
    "0+ params, 2 slots, 0 upvalues, 0 locals, 2 constants, 0 functions",
    "\t1\t[1]\tGETGLOBAL\t0 -1\t; require",
    "\t2\t[1]\tLOADK    \t1 -2\t; \"[red]\"",
    "\t3\t[1]\tCALL     \t0 2 1",
    "\t4\t[1]\tRETURN   \t0 1",
    "constants (2) for 0x1:",
    "\t1\t\"require\"",
    "\t2\t\"[red]\"",
    "locals (0) for 0x1:",
    "upvalues (0) for 0x1:"].map String.toList

/-- The main chunk of the unit. -/
def taggedMain : FunctionListing :=
  { kind := .main
    source := "u.lua"
    lineDefined := 0
    instructions := [
      ⟨1, 1, "GETGLOBAL", some 0, some (-1), none, some "require", none⟩,
      ⟨2, 1, "LOADK", some 1, some (-2), none, some "[red]", none⟩,
      ⟨3, 1, "CALL", some 0, some 2, some 1, none, none⟩,
      ⟨4, 1, "RETURN", some 0, some 1, none, none, none⟩]
    scope := ⟨[], []⟩ }

/-- What the unit touches and requires. -/
def taggedReport : ReferenceReport :=
  { ReferenceReport.empty with
    references := [⟨1, "require", false⟩]
    requirements := [⟨"[red]", 1, none⟩] }

/-- The report on the unit. -/
theorem analyzeListing_taggedLines :
    analyzeListing (String.ofList (joinLines taggedLines)) = .ok taggedReport := by
  have hbreaks : (taggedLines.all fun line => line.all fun c => !isLineBreak c) = true := by
    decide +kernel
  have hread : readFunctions ⟨taggedLines, 0⟩ = ([taggedMain], none) := by decide +kernel
  have hreport : (resolveFunctions [taggedMain]).report = taggedReport := by decide
  rw [analyzeListing_joinLines hbreaks, hread]
  exact congrArg Except.ok hreport

/-- The name of a module that is nowhere to be found comes to the console as a live tag. -/
theorem taggedLines_log_live_tag :
    let options : ScopingOptions := ⟨false, false, true⟩
    let config : AnalysisConfig := { AnalysisConfig.standard with scoping := options }
    let engine : Engine := ⟨config, [], ⟨[], []⟩, fun _ => .notStarted ""⟩
    HasLiveMarkup
      (engine.checkListing "u.lua" (String.ofList (joinLines taggedLines)) none).logs := by
  intro options config engine
  let reason := "module '[red]' not found on path ?.lua;?/init.lua"
  have hresolved : (engine.resolveModules ⟨1, []⟩ taggedReport).map (·.value)
      = [⟨⟨"[red]", 1, none⟩, .error reason⟩] := by
    unfold Engine.resolveModules
    rw [if_pos rfl]
    show [(⟨_, ((engine.loader ⟨1, []⟩).resolve "[red]" .empty).1.mapError ModuleError.message⟩
      : RequirementOutcome)] = _
    rw [ModuleLoader.resolve_eq]
    rfl
  have hcomplaint : Complaint.unresolved ⟨"[red]", 1, none⟩ reason
      ∈ engine.complaints (String.ofList (joinLines taggedLines)) ⟨1, []⟩ := by
    rw [Engine.complaints, analyzeListing_taggedLines]
    dsimp only
    rw [hresolved]
    exact List.mem_singleton_self _
  have hlive : HasLiveTag "[red]".toList :=
    ⟨[], "[red]".toList, [], rfl, ⟨'r', "ed".toList, rfl, rfl, by decide⟩, rfl⟩
  exact ((live_tag_logged_iff engine).1 "u.lua" _ none).mpr
    ⟨_, hcomplaint, Or.inr (Or.inl hlive)⟩

end LuaGlobals
