import LuaGlobals.Proofs.Module.Loadable

/-! # The loader's memory is transparent

What a loader remembers spares it work and changes no result.

* **`Consistent`** is the invariant of a loader at work, `Answers` what a call does to its state.
* **`resolve_answers`**: each call keeps the invariant, and what it finds is in the cache.
* `exists_resolve_eq_ok` finds the exports of every loadable module that does not lead back to one
  in progress, and `resolve_fst_eq` compares two states of a loader.
* **`resolve_transparent`**: a call behind any others is like the first one.
-/

namespace LuaGlobals.ModuleLoader

open Relation Whitelist

variable {loader : ModuleLoader} {name other : String} {inProgress : List String}
  {state state' before after : LoaderState}

/-! ## Consistent states -/

/-- **A loader remembers what is so**: only loadable modules are in its cache, none of them is in
progress, and each source behind them gave one report. -/
structure Consistent (loader : ModuleLoader) (inProgress : List String) (state : LoaderState) :
    Prop where
  /-- The modules in progress. -/
  inProgress_eq : state.inProgress = inProgress
  /-- A module in the cache is loadable and has its own exports there. -/
  loadable : ∀ {name surface}, Keyed.lookup? name state.cache = some surface →
    loader.Loadable name ∧ loader.ownSurface? name = some surface
  /-- A module in progress is neither listed nor in the cache. -/
  apart : ∀ {name}, name ∈ inProgress →
    loader.whitelisted? name = none ∧ Keyed.lookup? name state.cache = none
  /-- A source with exports gave one report when its module came into the cache. -/
  reported : ∀ {name}, loader.whitelisted? name = none → (loader.ownSurface? name).isSome →
    state.events.count (.reported name) = if Keyed.hasKey name state.cache then 1 else 0

/-- A loader that has resolved nothing is consistent. -/
theorem Consistent.empty : Consistent loader [] .empty where
  inProgress_eq := rfl
  loadable h := by cases h
  apart h := by cases h
  reported _ _ := rfl

/-- The modules in progress once the source of another one was entered. -/
theorem enter_inProgress (path : FilePath) (h : state.inProgress = inProgress) :
    (state.enter name path).inProgress = name :: inProgress := by
  rw [LoaderState.enter, h]

/-- Entering the source of a module that is neither listed nor in the cache. -/
theorem Consistent.enter (h : Consistent loader inProgress state) (path : FilePath)
    (hlisted : loader.whitelisted? name = none)
    (hcached : Keyed.lookup? name state.cache = none) :
    Consistent loader (name :: inProgress) (state.enter name path) where
  inProgress_eq := enter_inProgress path h.inProgress_eq
  loadable := h.loadable
  apart := by
    intro other hother
    rcases List.mem_cons.mp hother with rfl | hother
    · exact ⟨hlisted, hcached⟩
    · exact h.apart hother
  reported := by
    intro other hother hown
    refine Eq.trans ?_ (h.reported hother hown)
    simp [LoaderState.enter]

/-- Leaving the source that was entered last. -/
theorem Consistent.leave (h : Consistent loader (name :: inProgress) state) :
    Consistent loader inProgress (state.leave name) where
  inProgress_eq := by rw [LoaderState.leave, h.inProgress_eq, List.erase_cons_head]
  loadable := h.loadable
  apart hother := h.apart (List.mem_cons_of_mem _ hother)
  reported := h.reported

/-- What the cache holds once a module was remembered. -/
theorem lookup?_remember (state : LoaderState) (name other : String) (surface : Entries) :
    Keyed.lookup? other (state.remember name surface).cache
      = if other = name then some surface else Keyed.lookup? other state.cache := by
  by_cases h : other = name
  · rw [h, if_pos rfl, LoaderState.remember, Keyed.lookup?_put_self]
  · rw [if_neg h, LoaderState.remember, Keyed.lookup?_put_of_ne h]

/-- Which modules are in the cache once one was remembered. -/
theorem hasKey_remember (state : LoaderState) (name other : String) (surface : Entries) :
    Keyed.hasKey other (state.remember name surface).cache
      = (decide (other = name) || Keyed.hasKey other state.cache) := by
  rw [Keyed.hasKey, lookup?_remember]
  by_cases h : other = name <;> simp [h, Keyed.hasKey]

/-- How many reports a source gave once one was noted. -/
theorem count_noteReport (state : LoaderState) (name other : String) :
    (state.noteReport name).events.count (.reported other)
      = state.events.count (.reported other) + if other = name then 1 else 0 := by
  by_cases h : other = name
  · simp [LoaderState.noteReport, h]
  · simp [LoaderState.noteReport, h, Ne.symm h]

/-- Noting a report on a source without exports. -/
theorem Consistent.noteReport (h : Consistent loader inProgress state)
    (hown : loader.ownSurface? name = none) :
    Consistent loader inProgress (state.noteReport name) where
  inProgress_eq := h.inProgress_eq
  loadable := h.loadable
  apart := h.apart
  reported := by
    intro other hlisted hother
    have hne : other ≠ name := by
      rintro rfl
      rw [hown] at hother
      cases hother
    rw [count_noteReport, if_neg hne]
    exact h.reported hlisted hother

/-- Remembering a module that is loadable and not in progress, its report noted if it has a
source. -/
theorem Consistent.remember {surface : Entries} {events : List LoaderEvent}
    (h : Consistent loader inProgress state) (hloadable : loader.Loadable name)
    (hown : loader.ownSurface? name = some surface) (hnew : name ∉ inProgress)
    (hevents : ∀ {other}, loader.whitelisted? other = none → events.count (.reported other)
      = if other = name then 1 else state.events.count (.reported other)) :
    Consistent loader inProgress ({ state with events }.remember name surface) where
  inProgress_eq := h.inProgress_eq
  loadable := by
    intro other found hfound
    rw [lookup?_remember] at hfound
    split at hfound
    case isTrue heq => rw [heq, hown, hfound]; exact ⟨hloadable, rfl⟩
    case isFalse heq => exact h.loadable hfound
  apart := by
    intro other hother
    have heq : other ≠ name := fun heq => hnew (heq ▸ hother)
    rw [lookup?_remember, if_neg heq]
    exact h.apart hother
  reported := by
    intro other hlisted hother
    rw [hasKey_remember]
    refine (hevents hlisted).trans ?_
    by_cases heq : other = name
    · simp [heq]
    · simpa [heq] using h.reported hlisted hother

/-- Remembering a module of the whitelist. -/
theorem Consistent.remember_listed {surface : Entries} (h : Consistent loader inProgress state)
    (hlisted : loader.whitelisted? name = some surface) :
    Consistent loader inProgress (state.remember name surface) := by
  refine h.remember (.of_whitelisted hlisted) (ownSurface?_of_whitelisted hlisted) ?_ ?_
  · intro hname
    rw [(h.apart hname).1] at hlisted
    cases hlisted
  · intro other hother
    rw [if_neg]
    rintro rfl
    rw [hother] at hlisted
    cases hlisted

/-- Remembering a module with a source that gave its first report. -/
theorem Consistent.remember_reported {surface : Entries} (h : Consistent loader inProgress state)
    (hlisted : loader.whitelisted? name = none) (hloadable : loader.Loadable name)
    (hown : loader.ownSurface? name = some surface)
    (hcached : Keyed.lookup? name state.cache = none) (hnew : name ∉ inProgress) :
    Consistent loader inProgress ((state.noteReport name).remember name surface) := by
  have hevents (other : String) : (state.noteReport name).events.count (.reported other)
      = if other = name then 1 else state.events.count (.reported other) := by
    rw [count_noteReport]
    split
    case isTrue heq =>
      rw [heq, h.reported hlisted (hloadable.exported .refl), Keyed.hasKey, hcached]
      rfl
    case isFalse hne => rfl
  exact h.remember hloadable hown hnew fun _ => hevents _

/-! ## One call -/

/-- What calls make of a consistent state: a consistent one that forgets no module. -/
structure Extends (loader : ModuleLoader) (inProgress : List String)
    (before after : LoaderState) : Prop where
  /-- The state behind the calls is consistent. -/
  consistent : Consistent loader inProgress after
  /-- A module that was in the cache still is. -/
  kept : ∀ {name}, Keyed.hasKey name before.cache → Keyed.hasKey name after.cache

/-- A consistent state extends itself. -/
theorem Extends.refl (h : Consistent loader inProgress state) :
    Extends loader inProgress state state :=
  ⟨h, id⟩

/-- Extensions compose. -/
theorem Extends.trans {behind : LoaderState} (h : Extends loader inProgress before after)
    (h' : Extends loader inProgress after behind) : Extends loader inProgress before behind :=
  ⟨h'.consistent, h'.kept ∘ h.kept⟩

/-- Leaving a source extends the state before it was entered. -/
theorem Extends.leave {path : FilePath}
    (h : Extends loader (name :: inProgress) (before.enter name path) after) :
    Extends loader inProgress before (after.leave name) :=
  ⟨h.consistent.leave, h.kept⟩

/-- What a call for a module does: it extends the state, and the exports that it finds are in the
cache. -/
structure Answers (loader : ModuleLoader) (name : String) (inProgress : List String)
    (before : LoaderState) (result : Except ModuleError Entries × LoaderState) : Prop
    extends Extends loader inProgress before result.2 where
  /-- Exports that are found are in the cache. -/
  found : ∀ {surface}, result.1 = .ok surface → Keyed.lookup? name result.2.cache = some surface

/-- A call that fails answers when it extends the state. -/
theorem Answers.of_error {error : ModuleError} (h : Extends loader inProgress before after) :
    Answers loader name inProgress before (.error error, after) :=
  ⟨h, fun hok => by cases hok⟩

/-- A call that remembers what it found answers when that is consistent. -/
theorem Answers.of_remember {surface : Entries} (hcache : after.cache = before.cache)
    (h : Consistent loader inProgress (after.remember name surface)) :
    Answers loader name inProgress before (.ok surface, after.remember name surface) := by
  refine ⟨⟨h, ?_⟩, ?_⟩
  · intro other hother
    rw [hasKey_remember, hcache, hother, Bool.or_true]
  · rintro found ⟨⟩
    rw [lookup?_remember, if_pos rfl]

/-- A module with exports in an answer is loadable, and these are its own. -/
theorem Answers.loadable {result : Except ModuleError Entries × LoaderState} {surface : Entries}
    (h : Answers loader name inProgress before result) (hok : result.1 = .ok surface) :
    loader.Loadable name ∧ loader.ownSurface? name = some surface :=
  h.consistent.loadable (h.found hok)

/-- Several calls extend a state when each of them answers, and if none fails, all modules are
loadable. -/
theorem requireEach_extends {names : List String}
    (h : ∀ other ∈ names, ∀ state, Consistent loader inProgress state →
      Answers loader other inProgress state (loader.resolve other state))
    (hstate : Consistent loader inProgress state) :
    Extends loader inProgress state (loader.requireEach names state).2 ∧
    ((loader.requireEach names state).1 = .ok () → ∀ other ∈ names, loader.Loadable other) := by
  induction names generalizing state with
  | nil => exact ⟨.refl hstate, fun _ other hother => by cases hother⟩
  | cons name rest ih =>
      have hcall := h name List.mem_cons_self state hstate
      rw [requireEach]
      generalize loader.resolve name state = result at hcall ⊢
      obtain ⟨error | surface, after⟩ := result
      · exact ⟨hcall.toExtends, fun hok => by cases hok⟩
      · obtain ⟨hrest, hall⟩ :=
          ih (fun other hother => h other (List.mem_cons_of_mem _ hother)) hcall.consistent
        refine ⟨hcall.toExtends.trans hrest, ?_⟩
        intro hok
        exact List.forall_mem_cons.mpr ⟨(hcall.loadable rfl).1, hall hok⟩

/-- Concluding the analysis of a source answers, once all that it requires is loadable. -/
theorem conclude_answers {path : FilePath} (hstate : Consistent loader inProgress state)
    (hlisted : loader.whitelisted? name = none)
    (hcached : Keyed.lookup? name state.cache = none) (hnew : name ∉ inProgress)
    (hfind : loader.find? name = some path)
    (hrequires : ∀ other, loader.Requires name other → loader.Loadable other) :
    Answers loader name inProgress state
      (conclude name path (loader.sources.analysis path).outcome state) := by
  have hown := ownSurface?_of_find? hlisted hfind
  unfold conclude
  split
  case h_1 cause houtcome => exact .of_error (.refl hstate)
  case h_2 report houtcome =>
  rw [houtcome, exported?] at hown
  split
  case h_1 hsurface =>
    rw [hsurface] at hown
    exact .of_error ⟨hstate.noteReport hown, id⟩
  case h_2 surface hsurface =>
    rw [hsurface] at hown
    have hloadable : loader.Loadable name :=
      .of_requires (by rw [hown, Option.isSome_some]) hrequires
    exact .of_remember rfl (hstate.remember_reported hlisted hloadable hown hcached hnew)

/-- **Each call answers**: it keeps the invariant, and finds only what is so. -/
theorem resolve_answers (name : String) (inProgress : List String) :
    ∀ state, Consistent loader inProgress state →
      Answers loader name inProgress state (loader.resolve name state) := by
  induction name, inProgress using loader.resolve_induction with
  | step name inProgress ih =>
      intro state hstate
      rw [resolve_eq, hstate.inProgress_eq]
      split
      case h_1 surface hcached =>
        exact ⟨.refl hstate, fun hok => by cases hok; exact hcached⟩
      case h_2 hcached =>
      split
      case h_1 surface hlisted => exact .of_remember rfl (hstate.remember_listed hlisted)
      case h_2 hlisted =>
      split
      case isTrue hname => exact .of_error (.refl hstate)
      case isFalse hnew =>
      split
      case h_1 hfind => exact .of_error (.refl hstate)
      case h_2 path hfind =>
      have hrequires {other : String} : loader.Requires name other ↔ _ :=
        requires_iff_of_find? hlisted hfind
      have hentered := requireEach_extends
        (fun other hother => ih other hnew (hrequires.mpr hother))
        (hstate.enter path hlisted hcached)
      rw [resolveSource]
      generalize loader.requireEach _ (state.enter name path) = result at hentered ⊢
      obtain ⟨error | ⟨⟩, entered⟩ := result
      · exact .of_error hentered.1.leave
      · obtain ⟨hextends, hloadable⟩ := hentered
        have hconclude := conclude_answers hextends.leave.consistent hlisted
          (hextends.consistent.apart List.mem_cons_self).2 hnew hfind
          fun other hother => hloadable rfl other (hrequires.mp hother)
        exact ⟨hextends.leave.trans hconclude.toExtends, hconclude.found⟩

/-! ## Two states of a loader -/

/-- The result of concluding an analysis does not depend on the state. -/
theorem conclude_fst_eq (name : String) (path : FilePath)
    (outcome : Except AnalysisError ReferenceReport) (state state' : LoaderState) :
    (conclude name path outcome state).1 = (conclude name path outcome state').1 := by
  unfold conclude
  split
  · rfl
  · split <;> rfl

/-- Concluding an analysis finds the exports of the source. -/
theorem exists_conclude_eq_ok {path : FilePath} {outcome : Except AnalysisError ReferenceReport}
    (h : (exported? outcome).isSome) :
    ∃ surface, (conclude name path outcome state).1 = .ok surface := by
  unfold exported? at h
  unfold conclude
  split at h
  case h_1 cause => cases h
  case h_2 report =>
    obtain ⟨surface, hsurface⟩ := Option.isSome_iff_exists.mp h
    exact ⟨surface, by simp [hsurface]⟩

/-- The result for a source: the first failure among what it requires, or else its own result. -/
theorem resolveSource_fst_eq (name : String) (path : FilePath) (state : LoaderState) :
    (loader.resolveSource name path state).1 =
      (loader.requireEach (loader.sources.analysis path).requires (state.enter name path)).1.bind
        fun _ => (conclude name path (loader.sources.analysis path).outcome .empty).1 := by
  rw [resolveSource]
  rcases loader.requireEach _ (state.enter name path) with ⟨error | ⟨⟩, entered⟩
  · rfl
  · exact conclude_fst_eq ..

/-- Several calls find all that is asked for when each of them does. -/
theorem requireEach_eq_ok {names : List String}
    (h : ∀ other ∈ names, ∀ state : LoaderState, state.inProgress = inProgress →
      ∃ surface, (loader.resolve other state).1 = .ok surface)
    (hstate : state.inProgress = inProgress) :
    (loader.requireEach names state).1 = .ok () := by
  induction names generalizing state with
  | nil => rfl
  | cons name rest ih =>
      obtain ⟨surface, hfound⟩ := h name List.mem_cons_self state hstate
      have hafter := loader.resolve_inProgress name state
      rw [requireEach]
      generalize loader.resolve name state = result at hfound hafter ⊢
      obtain ⟨error | surface, after⟩ := result
      · cases hfound
      · exact ih (fun other hother => h other (List.mem_cons_of_mem _ hother))
          (hafter.trans hstate)

/-- Several calls have the same result in two states when each of them has. -/
theorem requireEach_fst_eq {names : List String}
    (h : ∀ other ∈ names, ∀ state state', Consistent loader inProgress state →
      Consistent loader inProgress state' →
      (loader.resolve other state).1 = (loader.resolve other state').1)
    (hstate : Consistent loader inProgress state)
    (hstate' : Consistent loader inProgress state') :
    (loader.requireEach names state).1 = (loader.requireEach names state').1 := by
  induction names generalizing state state' with
  | nil => rfl
  | cons name rest ih =>
      have heq := h name List.mem_cons_self state state' hstate hstate'
      have hcall := (resolve_answers name inProgress state hstate).consistent
      have hcall' := (resolve_answers name inProgress state' hstate').consistent
      rw [requireEach, requireEach]
      generalize loader.resolve name state = result at heq hcall ⊢
      generalize loader.resolve name state' = result' at heq hcall' ⊢
      obtain ⟨error | surface, after⟩ := result <;>
        obtain ⟨error' | surface', after'⟩ := result' <;>
        cases heq
      · rfl
      · exact ih (fun other hother => h other (List.mem_cons_of_mem _ hother)) hcall hcall'

/-- Modules in progress that lead to a module lead to what it requires, and so does the module. -/
theorem forall_mem_cons_transGen (h : ∀ outer ∈ inProgress, TransGen loader.Requires outer name)
    (hother : loader.Requires name other) :
    ∀ outer ∈ name :: inProgress, TransGen loader.Requires outer other :=
  List.forall_mem_cons.mpr ⟨.single hother, fun outer houter => (h outer houter).tail hother⟩

/-- **Loadable modules are found**, whatever the loader remembers, inside of modules in progress
that lead to them. -/
theorem exists_resolve_eq_ok (name : String) (inProgress : List String) :
    (∀ outer ∈ inProgress, TransGen loader.Requires outer name) → loader.Loadable name →
    ∀ state : LoaderState, state.inProgress = inProgress →
      ∃ surface, (loader.resolve name state).1 = .ok surface := by
  induction name, inProgress using loader.resolve_induction with
  | step name inProgress ih =>
      intro houter hloadable state hstate
      have hnew : name ∉ inProgress := fun hname => hloadable.acyclic .refl (houter name hname)
      rw [resolve_eq, hstate]
      split
      case h_1 surface hcached => exact ⟨surface, rfl⟩
      case h_2 hcached =>
      split
      case h_1 surface hlisted => exact ⟨surface, rfl⟩
      case h_2 hlisted =>
      have hsome := hloadable.exported .refl
      obtain ⟨path, hfind⟩ := exists_find?_of_ownSurface? hlisted hsome
      have hentered : (loader.requireEach (loader.sources.analysis path).requires
          (state.enter name path)).1 = .ok () := by
        refine requireEach_eq_ok (fun other hother => ?_) (enter_inProgress path hstate)
        have hrequires := (requires_iff_of_find? hlisted hfind).mpr hother
        exact ih other hnew hrequires (forall_mem_cons_transGen houter hrequires)
          (hloadable.of_required hrequires)
      rw [ownSurface?_of_find? hlisted hfind] at hsome
      rw [if_neg hnew, hfind]
      simp only [resolveSource_fst_eq, hentered]
      exact exists_conclude_eq_ok hsome

/-- **Two consistent states agree** on a module that the modules in progress lead to. -/
theorem resolve_fst_eq (name : String) (inProgress : List String) :
    (∀ outer ∈ inProgress, TransGen loader.Requires outer name) →
    ∀ state state', Consistent loader inProgress state → Consistent loader inProgress state' →
      (loader.resolve name state).1 = (loader.resolve name state').1 := by
  induction name, inProgress using loader.resolve_induction with
  | step name inProgress ih =>
      intro houter state state' hstate hstate'
      by_cases hloadable : loader.Loadable name
      · -- Both states find the module's own exports.
        have hfound {state : LoaderState} (h : Consistent loader inProgress state) :
            ∃ surface, (loader.resolve name state).1 = .ok surface ∧
              loader.ownSurface? name = some surface := by
          obtain ⟨surface, hok⟩ :=
            exists_resolve_eq_ok name inProgress houter hloadable state h.inProgress_eq
          exact ⟨surface, hok, ((resolve_answers name inProgress state h).loadable hok).2⟩
        obtain ⟨surface, hok, hown⟩ := hfound hstate
        obtain ⟨surface', hok', hown'⟩ := hfound hstate'
        rw [hok, hok', Option.some_inj.mp (hown.symm.trans hown')]
      · -- Neither state has the module in its cache, and so both take the same way.
        have hcached {state : LoaderState} (h : Consistent loader inProgress state) :
            Keyed.lookup? name state.cache = none :=
          Option.eq_none_iff_forall_ne_some.mpr fun _ hsome => hloadable (h.loadable hsome).1
        have hlisted : loader.whitelisted? name = none :=
          Option.eq_none_iff_forall_ne_some.mpr fun _ hsome => hloadable (.of_whitelisted hsome)
        rw [resolve_eq, resolve_eq, hcached hstate, hcached hstate', hlisted,
          hstate.inProgress_eq, hstate'.inProgress_eq]
        by_cases hnew : name ∈ inProgress
        · simp only [if_pos hnew]
        · simp only [if_neg hnew]
          cases hfind : loader.find? name with
          | none => rfl
          | some path =>
              have hentered := requireEach_fst_eq
                (fun other hother =>
                  have hrequires := (requires_iff_of_find? hlisted hfind).mpr hother
                  ih other hnew hrequires (forall_mem_cons_transGen houter hrequires))
                (hstate.enter path hlisted (hcached hstate))
                (hstate'.enter path hlisted (hcached hstate'))
              simp only [resolveSource_fst_eq, hentered]

/-! ## A sequence of calls -/

/-- The state behind some calls and a last one. -/
theorem resolveEach_concat (names : List String) (name : String) (state : LoaderState) :
    (loader.resolveEach (names ++ [name]) state).2
      = (loader.resolve name (loader.resolveEach names state).2).2 := by
  induction names generalizing state with
  | nil => rfl
  | cons first rest ih => exact ih (loader.resolve first state).2

/-- **Calls one after the other** keep a loader consistent, forget nothing, and have every loadable
module that was asked for in the cache. -/
theorem resolveEach_extends (loader : ModuleLoader) (names : List String)
    (hstate : Consistent loader [] state) :
    Extends loader [] state (loader.resolveEach names state).2 ∧
    ∀ name ∈ names, loader.Loadable name →
      Keyed.hasKey name (loader.resolveEach names state).2.cache := by
  induction names generalizing state with
  | nil => exact ⟨.refl hstate, fun _ hname => by cases hname⟩
  | cons first rest ih =>
      have hcall := resolve_answers first [] state hstate
      obtain ⟨hrest, hcached⟩ := ih hcall.consistent
      refine ⟨hcall.toExtends.trans hrest, ?_⟩
      intro name hname hloadable
      rcases List.mem_cons.mp hname with rfl | hname
      · obtain ⟨surface, hfound⟩ := exists_resolve_eq_ok name [] (fun _ houter => by cases houter)
          hloadable state hstate.inProgress_eq
        refine hrest.kept ?_
        rw [Keyed.hasKey, hcall.found hfound, Option.isSome_some]
      · exact hcached name hname hloadable

/-- With no module in progress exactly the loadable modules are found. -/
theorem exists_resolve_eq_ok_iff (name : String) (hstate : Consistent loader [] state) :
    (∃ surface, (loader.resolve name state).1 = .ok surface) ↔ loader.Loadable name := by
  constructor
  · rintro ⟨surface, hfound⟩
    exact ((resolve_answers name [] state hstate).loadable hfound).1
  · intro hloadable
    exact exists_resolve_eq_ok name [] (fun _ houter => by cases houter) hloadable state
      hstate.inProgress_eq

/-- What holds of a loader between the calls for some modules. -/
structure Settled (loader : ModuleLoader) (asked : List String) (state : LoaderState) : Prop where
  /-- No module is in progress. -/
  idle : state.inProgress = []
  /-- The cache holds what a new loader finds. -/
  sound : ∀ {name surface}, Keyed.lookup? name state.cache = some surface →
    (loader.resolve name .empty).1 = .ok surface
  /-- The cache holds each loadable module that was asked for. -/
  complete : ∀ name ∈ asked, loader.Loadable name → Keyed.hasKey name state.cache
  /-- The cache holds each module whose source gave a report with exports. -/
  reported : ∀ {name}, loader.whitelisted? name = none → (loader.ownSurface? name).isSome →
    .reported name ∈ state.events → Keyed.hasKey name state.cache
  /-- The source of a module in the cache gave one report. -/
  once : ∀ {name}, loader.whitelisted? name = none → Keyed.hasKey name state.cache →
    state.events.count (.reported name) = 1

/-- Calls for some modules leave a new loader settled. -/
theorem settled_resolveEach (loader : ModuleLoader) (names : List String) :
    Settled loader names (loader.resolveEach names .empty).2 := by
  obtain ⟨⟨hstate, -⟩, hcomplete⟩ := loader.resolveEach_extends names .empty
  generalize (loader.resolveEach names .empty).2 = state at hstate hcomplete ⊢
  refine ⟨hstate.inProgress_eq, ?_, hcomplete, ?_, ?_⟩
  · intro name surface hcached
    obtain ⟨hloadable, hown⟩ := hstate.loadable hcached
    obtain ⟨found, hfound⟩ := (exists_resolve_eq_ok_iff name .empty).mpr hloadable
    have hfresh := ((resolve_answers name [] .empty .empty).loadable hfound).2
    rw [hfound, Option.some_inj.mp (hfresh.symm.trans hown)]
  · intro name hlisted hown hevent
    have hcount := hstate.reported hlisted hown
    have hpositive := List.count_pos_iff.mpr hevent
    split at hcount
    case isTrue hcached => exact hcached
    case isFalse hmissing => omega
  · intro name hlisted hcached
    obtain ⟨surface, hsurface⟩ := Option.isSome_iff_exists.mp hcached
    have hown := (hstate.loadable hsurface).2
    rw [hstate.reported hlisted (by rw [hown, Option.isSome_some]), if_pos hcached]

/-- **The loader's memory is transparent.** Behind any calls, which may have failed, a call for a
module comes to an end with the result of a new loader: its exports if it is loadable, and the same
failure if not. It leaves no module in progress and only exports in the cache that a new loader
finds, from sources that were analyzed once. -/
theorem resolve_transparent (loader : ModuleLoader) (history : List String) (name : String) :
    let call := loader.resolve name (loader.resolveEach history .empty).2
    call.1 = (loader.resolve name .empty).1 ∧
    ((∃ surface, call.1 = .ok surface) ↔ loader.Loadable name) ∧
    Settled loader (history ++ [name]) call.2 := by
  have hstate := (loader.resolveEach_extends history .empty).1.consistent
  refine ⟨?_, exists_resolve_eq_ok_iff name hstate, ?_⟩
  · exact resolve_fst_eq name [] (fun _ houter => by cases houter) _ _ hstate .empty
  · have hsettled := settled_resolveEach loader (history ++ [name])
    rwa [resolveEach_concat] at hsettled

end LuaGlobals.ModuleLoader
