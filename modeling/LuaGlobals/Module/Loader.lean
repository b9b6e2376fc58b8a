import LuaGlobals.Check.Disassembler
import LuaGlobals.Reference.Basic
import LuaGlobals.Whitelist.Scoped

/-! # Loading required modules

A module is found in the whitelist, when that holds a table under its name, or in a source file on
the search path, whose export surface counts. Analyzing a source may require further modules.

* `exportSurface report` is the table that a unit exports: the members that it assigns to the
  local it returns, or the globals that it defines after it declared itself a module. A unit that
  does neither exports nothing.
* `ModuleSources` are the source files, with the modules that each one requires first.
* `ModuleLoader.find?` searches the path for the source file of a module.
* `ModuleLoader.resolve` finds the exports of a module. Exports are kept, and a module that is
  required while its own source is analyzed is refused.
-/

namespace LuaGlobals

open Whitelist

/-! ## Export surfaces -/

/-- The first component that a name has below a table. -/
def memberBelow? (table name : String) : Option String :=
  ((table ++ ".").toList.isPrefixOf? name.toList).map fun rest =>
    String.ofList (Text.beforeDot rest)

/-- The members that a unit assigns to a table. -/
def assignedMembers (references : List Reference) (table : String) : List String :=
  (references.filter (·.write)).filterMap fun ref => memberBelow? table ref.name

/-- The names that a unit defines after it declared itself a module. -/
def declaredNames (report : ReferenceReport) : List String :=
  let written := report.references.filter fun ref => ref.write && report.remark.line ≤ ref.line
  written.map (·.name) ++ report.remark.declaredRoot?.toList

/-- The table that a unit exports. -/
def exportSurface (report : ReferenceReport) : Option Entries :=
  match report.remark.exported? with
  | some table =>
    some (Keyed.putAll [] ((assignedMembers report.references table).map (·, Node.any)))
  | none =>
    if report.remark.declared then some (writtenBindings (declaredNames report) []) else none

/-! ## Sources -/

/-- What analyzing one source file takes and gives. -/
structure SourceAnalysis where
  /-- The modules that are resolved first. -/
  requires : List String
  /-- The report, if all of these were resolved. -/
  outcome : Except AnalysisError ReferenceReport

/-- The source files that modules are loaded from. -/
structure ModuleSources where
  /-- Whether a path leads to a source file. -/
  isFile : FilePath → Bool
  /-- The analysis of a source file. -/
  analysis : FilePath → SourceAnalysis
  /-- All modules that some source file requires. -/
  required : List String
  /-- No source file requires another module. -/
  requires_subset : ∀ path, (analysis path).requires ⊆ required

namespace ModuleSources

/-- The analysis that a list gives for a path. -/
def listed (sources : List (FilePath × SourceAnalysis)) (unlisted : FilePath → AnalysisError)
    (path : FilePath) : SourceAnalysis :=
  match sources.find? fun source => source.1 = path with
  | some source => source.2
  | none => { requires := [], outcome := .error (unlisted path) }

/-- Source files with the listed analyses; the analysis of any other file fails. -/
def ofList (isFile : FilePath → Bool) (sources : List (FilePath × SourceAnalysis))
    (unlisted : FilePath → AnalysisError) : ModuleSources :=
  { isFile
    analysis := listed sources unlisted
    required := sources.flatMap fun source => source.2.requires
    requires_subset := by
      intro path name hname
      unfold listed at hname
      split at hname
      · rename_i source hfind
        exact List.mem_flatMap.2 ⟨source, List.mem_of_find?_eq_some hfind, hname⟩
      · simp at hname }

/-- Source files whose analysis requires no module. -/
def ofReports (isFile : FilePath → Bool)
    (report : FilePath → Except AnalysisError ReferenceReport) : ModuleSources :=
  { isFile
    analysis := fun path => { requires := [], outcome := report path }
    required := []
    requires_subset := fun _ => List.Subset.refl _ }

end ModuleSources

/-! ## Errors -/

/-- Why a module has no exports. -/
inductive ModuleError where
  /-- The module is required while its source is being analyzed. -/
  | circular (moduleName : String)
  /-- No template of the path leads to a file. -/
  | notFound (moduleName : String) (luaPath : List String)
  /-- Its source cannot be analyzed. -/
  | notAnalyzable (moduleName : String) (path : FilePath) (cause : AnalysisError)
  /-- Its source exports nothing. -/
  | noTable (moduleName : String) (path : FilePath)
deriving DecidableEq, Repr

/-- The message for a module without exports. -/
def ModuleError.message : ModuleError → String
  | .circular moduleName => "circular require of '" ++ moduleName ++ "'"
  | .notFound moduleName luaPath =>
    "module '" ++ moduleName ++ "' not found on path " ++ ";".intercalate luaPath
  | .notAnalyzable moduleName path cause =>
    "module '" ++ moduleName ++ "' (" ++ path.toString ++ ") cannot be analyzed: "
      ++ cause.message
  | .noTable moduleName path =>
    "module '" ++ moduleName ++ "' (" ++ path.toString ++ ") does not export a table"

/-! ## Searching -/

/-- What a loader searches. -/
structure ModuleLoader where
  /-- The source files. -/
  sources : ModuleSources
  /-- The templates of the path, where a question mark stands for the name of the module. -/
  luaPath : List String
  /-- The directories that relative templates start from. -/
  searchDirs : List FilePath
  /-- The whitelist that is looked at first. -/
  whitelist : Entries

namespace ModuleLoader

/-- A template with every question mark replaced. -/
def fillTemplate (relative template : String) : String :=
  String.ofList (template.toList.flatMap fun c => if c = '?' then relative.toList else [c])

/-- The templates of the path filled for a module. -/
def candidates (loader : ModuleLoader) (relative : String) : List String :=
  loader.luaPath.map (fillTemplate relative)

/-- The name of a module as a relative path, its dots replaced by slashes. -/
def relativePath (moduleName : String) : String :=
  String.ofList (moduleName.toList.map fun c => if c = '.' then '/' else c)

/-- The paths that a module's source file may have, in the order of the directories. -/
def places (loader : ModuleLoader) (moduleName : String) : List FilePath :=
  loader.searchDirs.flatMap fun directory =>
    (loader.candidates (relativePath moduleName)).map fun candidate =>
      directory.join (.ofString candidate)

/-- The source file of a module: the first of its paths that leads to a file. -/
def find? (loader : ModuleLoader) (moduleName : String) : Option FilePath :=
  (loader.places moduleName).find? loader.sources.isFile

/-- The paths that are looked at to find the source file of a module. -/
def looked (loader : ModuleLoader) (moduleName : String) : List FilePath :=
  (loader.places moduleName).takeWhile (fun path => !loader.sources.isFile path)
    ++ (loader.find? moduleName).toList

/-- The table that the whitelist holds under the name of a module. -/
def whitelisted? (loader : ModuleLoader) (moduleName : String) : Option Entries :=
  match (Whitelist.resolve loader.whitelist moduleName).node? with
  | some (.table entries) => some entries
  | _ => none

end ModuleLoader

/-! ## Resolving -/

/-- What can be seen of a loader at work. -/
inductive LoaderEvent where
  /-- The analysis of the source of a module starts. -/
  | started (moduleName : String) (path : FilePath)
  /-- The analysis of the source of a module gave a report. -/
  | reported (moduleName : String)
deriving DecidableEq, Repr

/-- What a loader remembers. -/
structure LoaderState where
  /-- The exports found so far. -/
  cache : List (String × Entries)
  /-- The modules whose sources are being analyzed, the innermost first. -/
  inProgress : List String
  /-- What was seen so far, in order. -/
  events : List LoaderEvent
deriving Repr

namespace LoaderState

/-- The state before anything was resolved. -/
def empty : LoaderState :=
  { cache := [], inProgress := [], events := [] }

/-- The source files whose analysis was started, in order. -/
def analyzed (state : LoaderState) : List FilePath :=
  state.events.filterMap fun
    | .started _ path => some path
    | .reported _ => none

/-- The state while the source of a module is analyzed. -/
def enter (state : LoaderState) (moduleName : String) (path : FilePath) : LoaderState :=
  { state with
    inProgress := moduleName :: state.inProgress
    events := state.events ++ [.started moduleName path] }

/-- The state behind a report on the source of a module. -/
def noteReport (state : LoaderState) (moduleName : String) : LoaderState :=
  { state with events := state.events ++ [.reported moduleName] }

/-- The state behind the analysis of the source of a module. -/
def leave (state : LoaderState) (moduleName : String) : LoaderState :=
  { state with inProgress := state.inProgress.erase moduleName }

/-- The state that remembers the exports of a module. -/
def remember (state : LoaderState) (moduleName : String) (surface : Entries) : LoaderState :=
  { state with cache := Keyed.put moduleName surface state.cache }

end LoaderState

/-- The number of modules that sources require and whose own sources are not being analyzed. -/
def ModuleSources.unvisited (sources : ModuleSources) (inProgress : List String) : Nat :=
  sources.required.countP fun name => !inProgress.contains name

/-- Entering the source of a module leaves no more modules unvisited. -/
theorem ModuleSources.unvisited_cons_le (sources : ModuleSources) (name : String)
    (inProgress : List String) :
    sources.unvisited (name :: inProgress) ≤ sources.unvisited inProgress := by
  unfold unvisited
  apply List.countP_mono_left
  intro other _ h
  simp at h ⊢
  exact h.2

/-- Entering the source of a module that some source requires leaves fewer modules unvisited. -/
theorem ModuleSources.unvisited_cons_lt (sources : ModuleSources) {name : String}
    {inProgress : List String} (hrequired : name ∈ sources.required)
    (hnew : name ∉ inProgress) :
    sources.unvisited (name :: inProgress) < sources.unvisited inProgress := by
  obtain ⟨before, after, hsplit⟩ := List.append_of_mem hrequired
  have hle (names : List String) :
      names.countP (fun other => !(name :: inProgress).contains other)
        ≤ names.countP (fun other => !inProgress.contains other) := by
    apply List.countP_mono_left
    intro other _ h
    simp at h ⊢
    exact h.2
  have hbefore := hle before
  have hafter := hle after
  unfold unvisited
  rw [hsplit, List.countP_append, List.countP_append, List.countP_cons, List.countP_cons]
  simp [hnew] at hbefore hafter ⊢
  omega

/-- Leaving the source that was entered last restores the modules in progress. -/
theorem LoaderState.leave_inProgress {state entered : LoaderState} {name : String}
    {path : FilePath} (h : entered.inProgress = (state.enter name path).inProgress) :
    (entered.leave name).inProgress = state.inProgress := by
  simp [leave, h, enter]

namespace ModuleLoader

/-- The result of a step of a loader, which leaves the modules in progress as they were. -/
abbrev Result (α : Type) (state : LoaderState) :=
  { result : Except ModuleError α × LoaderState // result.2.inProgress = state.inProgress }

/-- The exports of a module whose source was analyzed, and the state that remembers them. -/
def conclude (moduleName : String) (path : FilePath)
    (outcome : Except AnalysisError ReferenceReport) (state : LoaderState) :
    Except ModuleError Entries × LoaderState :=
  match outcome with
  | .error cause => (.error (.notAnalyzable moduleName path cause), state)
  | .ok report =>
    let state := state.noteReport moduleName
    match exportSurface report with
    | none => (.error (.noTable moduleName path), state)
    | some surface => (.ok surface, state.remember moduleName surface)

/-- Concluding an analysis leaves the modules in progress as they are. -/
theorem conclude_inProgress (moduleName : String) (path : FilePath)
    (outcome : Except AnalysisError ReferenceReport) (state : LoaderState) :
    (conclude moduleName path outcome state).2.inProgress = state.inProgress := by
  unfold conclude
  split
  · rfl
  · split <;> rfl

mutual

/-- Finds the exports of a module in a state of the loader. -/
def resolveIn (loader : ModuleLoader) (moduleName : String) (state : LoaderState) :
    Result Entries state :=
  match Keyed.lookup? moduleName state.cache with
  | some surface => ⟨(.ok surface, state), rfl⟩
  | none =>
    match loader.whitelisted? moduleName with
    | some surface => ⟨(.ok surface, state.remember moduleName surface), rfl⟩
    | none =>
      -- The whitelist comes first, so a listed module may also be required in a circle.
      if moduleName ∈ state.inProgress then
        ⟨(.error (.circular moduleName), state), rfl⟩
      else
        match loader.find? moduleName with
        | none => ⟨(.error (.notFound moduleName loader.luaPath), state), rfl⟩
        | some path =>
          let analysis := loader.sources.analysis path
          match requireAll loader analysis.requires (state.enter moduleName path)
              (loader.sources.requires_subset path) with
          | ⟨(.error error, entered), h⟩ =>
            ⟨(.error error, entered.leave moduleName), LoaderState.leave_inProgress h⟩
          | ⟨(.ok (), entered), h⟩ =>
            ⟨conclude moduleName path analysis.outcome (entered.leave moduleName),
              (conclude_inProgress ..).trans (LoaderState.leave_inProgress h)⟩
termination_by (loader.sources.unvisited state.inProgress,
  if moduleName ∈ loader.sources.required then 0 else 1, 0)
decreasing_by
  have hle := loader.sources.unvisited_cons_le moduleName state.inProgress
  -- A module that no source requires can only be the first one: the flag falls instead.
  by_cases hrequired : moduleName ∈ loader.sources.required
  · exact Prod.Lex.left _ _ (loader.sources.unvisited_cons_lt hrequired (by assumption))
  · rcases Nat.lt_or_eq_of_le hle with hlt | heq
    · exact Prod.Lex.left _ _ hlt
    · simp only [LoaderState.enter, heq, hrequired, if_false]
      exact Prod.Lex.right _ (Prod.Lex.left _ _ Nat.zero_lt_one)

/-- Resolves modules one after the other up to the first that has no exports. -/
def requireAll (loader : ModuleLoader) (names : List String) (state : LoaderState)
    (hrequired : names ⊆ loader.sources.required) : Result Unit state :=
  match names, hrequired with
  | [], _ => ⟨(.ok (), state), rfl⟩
  | name :: rest, hrequired =>
    match loader.resolveIn name state with
    | ⟨(.error error, after), h⟩ => ⟨(.error error, after), h⟩
    | ⟨(.ok _, after), h⟩ =>
      have hrest : rest ⊆ loader.sources.required :=
        fun _ hmem => hrequired (List.mem_cons_of_mem _ hmem)
      let result := requireAll loader rest after hrest
      ⟨result.1, result.2.trans h⟩
termination_by (loader.sources.unvisited state.inProgress, 0, names.length + 1)
decreasing_by
  · have hmem : name ∈ loader.sources.required := hrequired List.mem_cons_self
    simp only [hmem, if_true]
    exact Prod.Lex.right _ (Prod.Lex.right _ (Nat.succ_pos _))
  · rw [show after.inProgress = state.inProgress from h]
    exact Prod.Lex.right _ (Prod.Lex.right _ (by simp))

end

/-- Finds the exports of a module, and the state of the loader behind that. -/
def resolve (loader : ModuleLoader) (moduleName : String) (state : LoaderState) :
    Except ModuleError Entries × LoaderState :=
  (loader.resolveIn moduleName state).1

/-- Whether the source file of a module is searched: its exports are not known, and it is not being
analyzed. -/
def searches (loader : ModuleLoader) (moduleName : String) (state : LoaderState) : Bool :=
  !Keyed.hasKey moduleName state.cache && (loader.whitelisted? moduleName).isNone
    && !state.inProgress.contains moduleName

/-- Finds the exports of several modules in order, each with its own result. -/
def resolveEach (loader : ModuleLoader) :
    List String → LoaderState → List (Except ModuleError Entries) × LoaderState
  | [], state => ([], state)
  | name :: rest, state =>
    let (result, state) := loader.resolve name state
    let (results, state) := loader.resolveEach rest state
    (result :: results, state)

end ModuleLoader

end LuaGlobals
