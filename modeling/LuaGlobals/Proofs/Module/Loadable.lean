import LuaGlobals.Module.Loader
import Mathlib.Logic.Relation

/-! # Loadable modules

Which modules can be resolved, said by the modules that sources require and without the loader's
memory.

* `Requires` is the graph of the modules that are resolved for another one.
* **`Loadable`**: all that a module requires has exports, and nothing of it requires itself.
* `resolve_eq` is the recursion of the loader without its measure, and **`resolve_induction`** the
  induction along it: into the modules that one requires, with that one in progress.
-/

namespace LuaGlobals.ModuleLoader

open Relation Whitelist

/-! ## The graph of modules -/

/-- What a source exports by the outcome of its analysis. -/
def exported? : Except AnalysisError ReferenceReport → Option Entries
  | .error _ => none
  | .ok report => exportSurface report

/-- The exports of a module, as far as they depend on it alone: the table of the whitelist, or else
what its source exports. -/
def ownSurface? (loader : ModuleLoader) (name : String) : Option Entries :=
  match loader.whitelisted? name with
  | some surface => some surface
  | none => (loader.find? name).bind fun path => exported? (loader.sources.analysis path).outcome

/-- The modules that the source of a module requires. No source is read for a module of the
whitelist. -/
def requiredBy (loader : ModuleLoader) (name : String) : List String :=
  match loader.whitelisted? name with
  | some _ => []
  | none =>
    match loader.find? name with
    | none => []
    | some path => (loader.sources.analysis path).requires

/-- The source of one module requires another. -/
def Requires (loader : ModuleLoader) (name other : String) : Prop :=
  other ∈ loader.requiredBy name

/-- **A module can be loaded**: every module that it leads to has exports, and none of them leads
back to itself. -/
structure Loadable (loader : ModuleLoader) (name : String) : Prop where
  /-- Every module in reach has exports. -/
  exported : ∀ {other}, ReflTransGen loader.Requires name other →
    (loader.ownSurface? other).isSome
  /-- No module in reach requires itself through others. -/
  acyclic : ∀ {other}, ReflTransGen loader.Requires name other →
    ¬ TransGen loader.Requires other other

variable {loader : ModuleLoader} {name other : String}

/-- What a loadable module requires is loadable. -/
theorem Loadable.of_required (h : loader.Loadable name) (hother : loader.Requires name other) :
    loader.Loadable other where
  exported hreach := h.exported (.head hother hreach)
  acyclic hreach := h.acyclic (.head hother hreach)

/-- A module with exports is loadable when all that it requires is. -/
theorem Loadable.of_requires (hown : (loader.ownSurface? name).isSome)
    (h : ∀ other, loader.Requires name other → loader.Loadable other) : loader.Loadable name where
  exported := by
    intro target hreach
    rcases hreach.cases_head with rfl | ⟨first, hfirst, hreach⟩
    · exact hown
    · exact (h first hfirst).exported hreach
  acyclic := by
    intro target hreach hcycle
    rcases hreach.cases_head with rfl | ⟨first, hfirst, hreach⟩
    · -- A cycle through the module is also one through the first module on it.
      obtain ⟨first, hfirst, hback⟩ := TransGen.head'_iff.mp hcycle
      exact (h first hfirst).acyclic .refl (.tail' hback hfirst)
    · exact (h first hfirst).acyclic hreach hcycle

/-- The exports of a module of the whitelist. -/
theorem ownSurface?_of_whitelisted {surface : Entries}
    (h : loader.whitelisted? name = some surface) : loader.ownSurface? name = some surface := by
  rw [ownSurface?, h]

/-- A module of the whitelist is loadable. -/
theorem Loadable.of_whitelisted {surface : Entries}
    (h : loader.whitelisted? name = some surface) : loader.Loadable name := by
  refine .of_requires (by rw [ownSurface?_of_whitelisted h, Option.isSome_some]) ?_
  intro other hother
  rw [Requires, requiredBy, h] at hother
  cases hother

/-- What a module with a source requires. -/
theorem requires_iff_of_find? {path : FilePath} (hlisted : loader.whitelisted? name = none)
    (hfind : loader.find? name = some path) :
    loader.Requires name other ↔ other ∈ (loader.sources.analysis path).requires := by
  rw [Requires, requiredBy, hlisted, hfind]

/-- What a module with a source exports. -/
theorem ownSurface?_of_find? {path : FilePath} (hlisted : loader.whitelisted? name = none)
    (hfind : loader.find? name = some path) :
    loader.ownSurface? name = exported? (loader.sources.analysis path).outcome := by
  rw [ownSurface?, hlisted, hfind]
  rfl

/-- A module outside of the whitelist has no exports without a source. -/
theorem exists_find?_of_ownSurface? (hlisted : loader.whitelisted? name = none)
    (h : (loader.ownSurface? name).isSome) : ∃ path, loader.find? name = some path := by
  unfold ownSurface? at h
  rw [hlisted] at h
  cases hfind : loader.find? name with
  | none => rw [hfind] at h; cases h
  | some path => exact ⟨path, rfl⟩

/-! ## The recursion of the loader -/

/-- Resolves modules one after the other up to the first that has no exports. -/
def requireEach (loader : ModuleLoader) :
    List String → LoaderState → Except ModuleError Unit × LoaderState
  | [], state => (.ok (), state)
  | name :: rest, state =>
    match loader.resolve name state with
    | (.error error, after) => (.error error, after)
    | (.ok _, after) => requireEach loader rest after

/-- The loader's own recursion over the modules that a source requires is that one. -/
theorem requireAll_eq (names : List String) (state : LoaderState)
    (hrequired : names ⊆ loader.sources.required) :
    (loader.requireAll names state hrequired).1 = loader.requireEach names state := by
  induction names generalizing state with
  | nil => rw [requireAll, requireEach]
  | cons name rest ih =>
      rw [requireAll, requireEach, resolve]
      rcases loader.resolveIn name state with ⟨⟨result, after⟩, hafter⟩
      cases result with
      | error error => rfl
      | ok surface => exact ih after _

/-- The exports of a module from its source, and the state of the loader behind that. -/
def resolveSource (loader : ModuleLoader) (name : String) (path : FilePath) (state : LoaderState) :
    Except ModuleError Entries × LoaderState :=
  match loader.requireEach (loader.sources.analysis path).requires (state.enter name path) with
  | (.error error, entered) => (.error error, entered.leave name)
  | (.ok (), entered) =>
    conclude name path (loader.sources.analysis path).outcome (entered.leave name)

/-- **The recursion of the loader**, without the measure that bounds it. -/
theorem resolve_eq (name : String) (state : LoaderState) :
    loader.resolve name state =
      match Keyed.lookup? name state.cache with
      | some surface => (.ok surface, state)
      | none =>
        match loader.whitelisted? name with
        | some surface => (.ok surface, state.remember name surface)
        | none =>
          if name ∈ state.inProgress then (.error (.circular name), state)
          else
            match loader.find? name with
            | none => (.error (.notFound name loader.luaPath), state)
            | some path => loader.resolveSource name path state := by
  rw [resolve, resolveIn]
  cases Keyed.lookup? name state.cache with
  | some surface => rfl
  | none =>
    cases loader.whitelisted? name with
    | some surface => rfl
    | none =>
      by_cases hprogress : name ∈ state.inProgress
      · simp only [if_pos hprogress]
      · simp only [if_neg hprogress]
        cases loader.find? name with
        | none => rfl
        | some path =>
          have heq := requireAll_eq (loader.sources.analysis path).requires (state.enter name path)
            (loader.sources.requires_subset path)
          simp only [resolveSource, ← heq]
          rcases loader.requireAll (loader.sources.analysis path).requires (state.enter name path)
            (loader.sources.requires_subset path) with ⟨⟨result, entered⟩, hentered⟩
          cases result <;> rfl

/-- Finding the exports of a module leaves the modules in progress as they were. -/
theorem resolve_inProgress (loader : ModuleLoader) (name : String) (state : LoaderState) :
    (loader.resolve name state).2.inProgress = state.inProgress :=
  (loader.resolveIn name state).2

/-- Required modules are among those that sources require. -/
theorem Requires.mem_required (h : loader.Requires name other) :
    other ∈ loader.sources.required := by
  unfold Requires requiredBy at h
  split at h
  · cases h
  · split at h
    · cases h
    · exact loader.sources.requires_subset _ h

/-- **Induction along the recursion of the loader**: from the modules that a module requires, with
that one in progress, to the module. -/
theorem resolve_induction (loader : ModuleLoader) {motive : String → List String → Prop}
    (step : ∀ name inProgress,
      (∀ other, name ∉ inProgress → loader.Requires name other →
        motive other (name :: inProgress)) → motive name inProgress)
    (name : String) (inProgress : List String) : motive name inProgress :=
  step name inProgress fun other _ _ => resolve_induction loader step other (name :: inProgress)
termination_by (loader.sources.unvisited inProgress,
  if name ∈ loader.sources.required then 0 else 1)
decreasing_by
  rename_i hnew hother
  by_cases hrequired : name ∈ loader.sources.required
  · exact Prod.Lex.left _ _ (loader.sources.unvisited_cons_lt hrequired hnew)
  · rcases Nat.lt_or_eq_of_le (loader.sources.unvisited_cons_le name inProgress) with hlt | heq
    · exact Prod.Lex.left _ _ hlt
    · rw [heq, if_neg hrequired, if_pos hother.mem_required]
      exact Prod.Lex.right _ Nat.zero_lt_one

end LuaGlobals.ModuleLoader
