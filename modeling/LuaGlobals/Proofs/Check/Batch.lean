import LuaGlobals.Check.Engine
import LuaGlobals.Proofs.Check.Refusal
import LuaGlobals.Proofs.Files.Spelling
import LuaGlobals.Proofs.Keyed

/-! # Batches of checks

A batch runs its checks one after the other and keeps their results by the names of the units. The
result of a later check takes the place of an earlier one of the same name. Since a check sees
nothing of the others, the two are the same. What the host refuses to a check is not taken up, so
that it breaks off the batch as well.

* `units_collectResults` and `effects_collectResults`: what a batch of any checks holds and does.
* **`on_collectResults`** and **`on_collectResults_of_refused`**: what becomes of a batch on a host.
* `unit_checkListing` and `unit_checkFile`: a check tells the unit that it was asked for.
* **`units_collectResults_map`** and **`success_collectResults_map`**: a batch of the checks of
  files has one result for each file, and succeeds when all of them do. -/

namespace LuaGlobals

namespace Engine

/-! ## Collecting results -/

/-- The units of a batch: each result is put under its name. -/
theorem units_collectResults (batch : BatchResult) (checks : List (Traced UnitResult)) :
    (collectResults batch checks).value.units
      = Keyed.putAll batch.units (checks.map fun check => (check.value.unit, check.value)) := by
  induction checks generalizing batch with
  | nil => rfl
  | cons check rest ih =>
      rw [collectResults, Traced.value_bind, ih]
      rfl

/-- The checks do what they do one after the other. -/
theorem effects_collectResults (batch : BatchResult) (checks : List (Traced UnitResult)) :
    (collectResults batch checks).effects = checks.flatMap (·.effects) := by
  induction checks generalizing batch with
  | nil => rfl
  | cons check rest ih => rw [collectResults, Traced.effects_bind, ih, List.flatMap_cons]

/-- The messages of the checks come one after the other. -/
theorem logs_collectResults (batch : BatchResult) (checks : List (Traced UnitResult)) :
    (collectResults batch checks).logs = checks.flatMap (·.logs) := by
  rw [Traced.logs, effects_collectResults, List.filterMap_flatMap]
  rfl

/-- **A batch breaks off** where the first of its checks does in which something is refused. -/
theorem refused?_collectResults (host : Host) (batch : BatchResult)
    (checks : List (Traced UnitResult)) :
    (collectResults batch checks).refused? host
      = checks.findSome? fun check => check.refused? host := by
  rw [Traced.refused?, effects_collectResults, List.find?_flatMap]
  rfl

/-- **A batch in which nothing is refused** goes to its end. -/
theorem on_collectResults {host : Host} {checks : List (Traced UnitResult)}
    (hchecks : ∀ check ∈ checks, check.refused? host = none) (batch : BatchResult) :
    (collectResults batch checks).on host
      = ⟨.ok (collectResults batch checks).value, checks.flatMap (·.effects)⟩ := by
  have hnone : (collectResults batch checks).refused? host = none := by
    rw [refused?_collectResults, List.findSome?_eq_none_iff]
    exact hchecks
  rw [Traced.on_of_refused?_eq_none hnone, effects_collectResults]

/-- **When something is refused to a check**, it ends the batch, and the checks behind are not
begun. -/
theorem on_collectResults_of_refused {host : Host} {before after : List (Traced UnitResult)}
    {check : Traced UnitResult} {effect : Effect}
    (hbefore : ∀ other ∈ before, other.refused? host = none)
    (hcheck : check.refused? host = some effect) (batch : BatchResult) :
    (collectResults batch (before ++ check :: after)).on host
      = ⟨.error effect, before.flatMap (·.effects) ++ (check.on host).effects⟩ := by
  have hrefused :
      (collectResults batch (before ++ check :: after)).refused? host = some effect := by
    rw [refused?_collectResults, List.findSome?_append, List.findSome?_eq_none_iff.mpr hbefore,
      Option.none_or, List.findSome?_cons, hcheck]
  have heffects (start : BatchResult) :
      ((collectResults start (before ++ check :: after)).on host).effects
        = before.flatMap (·.effects) ++ (check.on host).effects := by
    have hsome : check.refused? host ≠ none := hcheck ▸ Option.some_ne_none effect
    clear hrefused
    -- The checks before it are run to their ends, whatever the batch they are added to.
    induction before generalizing start with
    | nil => exact Traced.effects_on_bind _ hsome
    | cons first rest ih =>
        obtain ⟨hfirst, hrest⟩ := List.forall_mem_cons.mp hbefore
        have hall := Traced.refused?_eq_none_iff.mp hfirst
        rw [List.cons_append, collectResults, Traced.on, Traced.effects_bind,
          List.takeWhile_append_of_pos fun effect hmem => by
            rw [hall effect hmem, Bool.not_false],
          List.flatMap_cons, List.append_assoc]
        exact congrArg (first.effects ++ ·) (ih hrest (start.add first.value))
  rw [← heffects batch, Traced.on, hrefused]
  rfl

/-! ## The units of results -/

variable (engine : Engine)

/-- The check of a listing tells the unit that it was asked for. -/
theorem unit_checkListingIn (unit text : String) (directory : FilePath) :
    (engine.checkListingIn unit text directory).value.unit = unit := by
  unfold checkListingIn
  split <;> rfl

/-- The check of a listing tells the unit that it was asked for. -/
theorem unit_checkListing (unit text : String) (directory : Option FilePath) :
    (engine.checkListing unit text directory).value.unit = unit :=
  engine.unit_checkListingIn unit text _

/-- The check of a source file tells the spelling of its path. -/
theorem unit_checkFile (path : FilePath) :
    (engine.checkFile path).value.unit = path.toString := by
  unfold checkFile
  cases engine.listing path with
  | error cause => rfl
  | ok text => exact engine.unit_checkListingIn path.toString text path.parent

/-! ## Batches of files -/

section Files

variable {check : FilePath → Traced UnitResult} {paths : List FilePath}

/-- **The units of a batch of files** are the spellings of their paths, each once, with what the
check of the path gives for itself. -/
theorem units_collectResults_map
    (hunit : ∀ path ∈ paths, (check path).value.unit = path.toString)
    (hpaths : ∀ path ∈ paths, path.Proper) :
    (collectResults .empty (paths.map check)).value.units
      = (paths.map FilePath.toString).eraseDups.map
          fun text => (text, (check (.ofString text)).value) := by
  -- A proper path is told by its spelling, so the results are a function of the names.
  have hentries : (paths.map check).map (fun check => (check.value.unit, check.value))
      = (paths.map FilePath.toString).map
          fun text => (text, (check (.ofString text)).value) := by
    rw [List.map_map, List.map_map]
    refine List.map_congr_left fun path hpath => ?_
    rw [Function.comp_apply, Function.comp_apply, hunit path hpath,
      FilePath.ofString_toString (hpaths path hpath)]
  rw [units_collectResults, hentries]
  exact Keyed.putAll_map _ _

/-- **A batch of files succeeds** when the check of each file does. -/
theorem success_collectResults_map
    (hunit : ∀ path ∈ paths, (check path).value.unit = path.toString)
    (hpaths : ∀ path ∈ paths, path.Proper) :
    (collectResults .empty (paths.map check)).value.success
      = paths.all fun path => (check path).value.success := by
  rw [BatchResult.success, BatchResult.results, units_collectResults_map hunit hpaths,
    Bool.eq_iff_iff, List.all_eq_true, List.all_eq_true]
  simp only [List.forall_mem_map, List.mem_eraseDups]
  refine forall_congr' fun path => ?_
  constructor
  · intro h hpath
    have hresult := h hpath
    rwa [FilePath.ofString_toString (hpaths path hpath)] at hresult
  · intro h hpath
    rw [FilePath.ofString_toString (hpaths path hpath)]
    exact h hpath

end Files

end Engine

end LuaGlobals
