import LuaGlobals.Proofs.Policy.DefinitionOrder

/-! # Findings in either mode

A tolerant walk learns from assignments and a plain one swaps its whitelist at the declaration. What
both find on a reference is said here at once, by a whitelist of the line and what stands before.

* `whitelistFor` is the whitelist of a line, in tolerant mode the one after the set-up.
* `findingOn` is the finding on a reference, and **`diagnostics_evaluate_eq`** all that a check
  finds.
* **`findingOn_of_mem_keys`**: where the root of a reference is known, nothing before it matters.
* **`exists_verdict_of_mem_diagnostics`** and **`mem_diagnostics_of_verdict`**: findings on known
  roots are verdicts. -/

namespace LuaGlobals

open Whitelist

/-! ## The finding on a reference -/

/-- The finding on a reference by a whitelist, behind others that were judged before. Only a
tolerant walk has learned from these. -/
def findingOn (tolerant : Bool) (unit : String) (whitelist : Entries) (earlier : List Reference)
    (ref : Reference) : Option Diagnostic :=
  if tolerant then findingAfter unit whitelist earlier ref else verdict unit whitelist ref

section

variable {tolerant : Bool} {unit : String} {whitelist other : Entries} {earlier : List Reference}
  {ref : Reference} {diagnostic : Diagnostic}

/-- A verdict names its reference. -/
theorem line_name_of_verdict (h : verdict unit whitelist ref = some diagnostic) :
    diagnostic.line = ref.line ∧ diagnostic.name = some ref.name := by
  unfold verdict at h
  dsimp only at h
  split at h
  case h_1 => cases h
  case h_2 => cases h; exact ⟨rfl, rfl⟩
  case h_3 => cases h
  case h_4 =>
      split at h
      · cases h
      · cases h; exact ⟨rfl, rfl⟩
  case h_5 =>
      split at h
      · cases h; exact ⟨rfl, rfl⟩
      · cases h; exact ⟨rfl, rfl⟩

/-- **Where the root is known**, a tolerant walk passes an assignment, and any other reference gets
its verdict. -/
theorem findingOn_of_mem_keys (hroot : ref.root ∈ Keyed.keys whitelist) :
    findingOn tolerant unit whitelist earlier ref
      = if tolerant && ref.write then none else verdict unit whitelist ref := by
  unfold findingOn
  cases tolerant with
  | false => rfl
  | true =>
      cases hwrite : ref.write with
      | true => rw [findingAfter, hwrite]; rfl
      | false =>
          -- A known root is judged as if nothing stood before the reference.
          have hstart : verdict unit whitelist ref = findingAfter unit whitelist [] ref :=
            (Learned.start whitelist).verdict_eq unit hwrite
          rw [hstart, findingAfter, findingAfter, if_pos hroot, if_pos hroot]
          rfl

/-- A finding names its reference. -/
theorem line_name_of_findingOn
    (h : findingOn tolerant unit whitelist earlier ref = some diagnostic) :
    diagnostic.line = ref.line ∧ diagnostic.name = some ref.name := by
  by_cases hroot : ref.root ∈ Keyed.keys whitelist
  · rw [findingOn_of_mem_keys hroot] at h
    split at h
    · cases h
    · exact line_name_of_verdict h
  · -- A new root may have been learned, so the finding is not a verdict by this whitelist.
    unfold findingOn findingAfter at h
    rw [if_neg hroot] at h
    split at h
    · split at h
      · cases h
      · split at h
        · cases h
        · cases h; exact ⟨rfl, rfl⟩
    · exact line_name_of_verdict h

/-- **A finding depends on nothing but the entry of the root.** -/
theorem findingOn_congr
    (h : Keyed.lookup? ref.root whitelist = Keyed.lookup? ref.root other) :
    findingOn tolerant unit whitelist earlier ref = findingOn tolerant unit other earlier ref := by
  have hkeys : ref.root ∈ Keyed.keys whitelist ↔ ref.root ∈ Keyed.keys other := by
    rw [← Keyed.lookup?_isSome_iff, ← Keyed.lookup?_isSome_iff, h]
  have hresolve : resolve whitelist ref.name = resolve other ref.name := resolve_congr h
  unfold findingOn findingAfter verdict
  simp only [hkeys, hresolve]

/-- A name below a node that permits everything has no finding. -/
theorem verdict_of_node?_any (h : (resolve whitelist ref.name).node? = some .any) :
    verdict unit whitelist ref = none := by
  unfold verdict
  rw [h]
  cases ref.write <;> rfl

/-- A name that leads to a node has a known root. -/
theorem root_mem_keys_of_node? {node : Node}
    (h : (resolve whitelist ref.name).node? = some node) : ref.root ∈ Keyed.keys whitelist := by
  apply Classical.byContradiction
  intro hroot
  rw [resolve_eq_of_not_mem hroot] at h
  cases h

end

/-! ## The findings of a check -/

/-- The whitelist of a line in either mode. A tolerant walk takes no notice of a declaration, and
what it learns on its way are roots that this whitelist lacks. -/
def whitelistFor (options : ScopingOptions) (report : ReferenceReport)
    (outcomes : List RequirementOutcome) (base : Entries) (line : Int) : Entries :=
  if options.tolerant then whitelistBefore options report outcomes base
  else whitelistOn options report outcomes base line

section

variable {options : ScopingOptions} {report : ReferenceReport} {outcomes : List RequirementOutcome}
  {base : Entries} {unit : String} {ref : Reference} {diagnostic : Diagnostic}

/-- The lines behind the declaration have a whitelist of their own, unless the walk is tolerant. -/
theorem whitelistFor_eq (line : Int) :
    whitelistFor options report outcomes base line
      = if !options.tolerant && (report.remark.declared && report.remark.line < line) then
          whitelistBehind options report outcomes base
        else whitelistBefore options report outcomes base := by
  unfold whitelistFor whitelistOn
  cases options.tolerant <;> rfl

/-- **The findings on a unit in either mode** are the requirements that failed and the findings on
its judged references. -/
theorem diagnostics_evaluate_eq :
    (evaluate options base unit report outcomes).1.diagnostics
      = (if options.loadRequires then outcomes.filterMap (requireFailure? unit) else [])
        ++ (judgedReferences options report).zipIdx.filterMap fun (ref, place) =>
          findingOn options.tolerant unit (whitelistFor options report outcomes base ref.line)
            ((judgedReferences options report).take place) ref := by
  unfold whitelistFor findingOn
  cases htolerant : options.tolerant with
  | false =>
      -- Without learning the places of the references do not matter.
      rw [diagnostics_evaluate htolerant]
      conv_lhs => rw [← List.zipIdx_map_fst 0 (judgedReferences options report),
        List.filterMap_map]
      rfl
  | true =>
      rw [diagnostics_evaluate_tolerant htolerant, tolerantFindings_eq (Learned.start _)]
      rfl

/-- The errors on a unit are those of its judged references. -/
theorem errors_evaluate_eq :
    (evaluate options base unit report outcomes).1.errors
      = (judgedReferences options report).zipIdx.filterMap fun (ref, place) =>
        (findingOn options.tolerant unit (whitelistFor options report outcomes base ref.line)
          ((judgedReferences options report).take place) ref).filter (·.isError) := by
  rw [UnitResult.errors, diagnostics_evaluate_eq, List.filter_append, List.filter_filterMap]
  cases options.loadRequires <;> simp [errors_requireFailure?]

/-- **A finding is a failed requirement or the verdict on a reference**, given by the whitelist of
its line when that has the root. -/
theorem exists_verdict_of_mem_diagnostics
    (h : diagnostic ∈ (evaluate options base unit report outcomes).1.diagnostics) :
    (options.loadRequires = true
        ∧ ∃ outcome ∈ outcomes, requireFailure? unit outcome = some diagnostic)
      ∨ ∃ ref ∈ report.references, diagnostic.line = ref.line ∧ diagnostic.name = some ref.name
        ∧ (ref.root ∈ Keyed.keys (whitelistFor options report outcomes base ref.line) →
          verdict unit (whitelistFor options report outcomes base ref.line) ref
            = some diagnostic) := by
  rw [diagnostics_evaluate_eq, List.mem_append] at h
  rcases h with hfailure | hfinding
  · split at hfailure
    case isTrue hload => exact Or.inl ⟨hload, List.mem_filterMap.mp hfailure⟩
    case isFalse => exact absurd hfailure List.not_mem_nil
  · obtain ⟨⟨ref, place⟩, hplace, hfinding⟩ := List.mem_filterMap.mp hfinding
    have hjudged : ref ∈ judgedReferences options report := List.fst_mem_of_mem_zipIdx hplace
    obtain ⟨hline, hname⟩ := line_name_of_findingOn hfinding
    refine Or.inr ⟨ref, mem_inLineOrder.mp (List.mem_filter.mp hjudged).1, hline, hname, ?_⟩
    intro hroot
    dsimp only at hfinding
    rw [findingOn_of_mem_keys hroot] at hfinding
    split at hfinding
    · cases hfinding
    · exact hfinding

/-- **The verdict on a judged read with a known root is a finding.** -/
theorem mem_diagnostics_of_verdict (hjudged : ref ∈ judgedReferences options report)
    (hread : ref.write = false)
    (hroot : ref.root ∈ Keyed.keys (whitelistFor options report outcomes base ref.line))
    (hverdict : verdict unit (whitelistFor options report outcomes base ref.line) ref
      = some diagnostic) :
    diagnostic ∈ (evaluate options base unit report outcomes).1.diagnostics := by
  obtain ⟨place, hplace⟩ := List.mem_iff_getElem?.mp hjudged
  rw [diagnostics_evaluate_eq, List.mem_append, List.mem_filterMap]
  refine Or.inr ⟨(ref, place), List.mem_zipIdx_iff_getElem?.mpr hplace, ?_⟩
  dsimp only
  rw [findingOn_of_mem_keys hroot, hread, Bool.and_false, if_neg Bool.false_ne_true, hverdict]

end

end LuaGlobals
