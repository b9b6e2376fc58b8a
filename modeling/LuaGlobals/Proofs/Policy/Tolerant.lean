import LuaGlobals.Proofs.Policy.Walk
import Mathlib.Data.List.Permutation

/-! # Tolerance

A tolerant walk permits every assignment and takes no notice of a declaration. What it reports is
compared with what the plain walk reports.

* `tolerantFindings` are the findings of a tolerant walk.
* **`errors_tolerantFindings_sublist`**: an error of a tolerant walk is one of a plain walk, unless
  the plain walk knows the root.
* **`tolerant_errors_sublist`**: the errors that tolerance adds are the reads, behind a bare
  declaration, of what the unit defines itself. -/

namespace LuaGlobals

open Whitelist

/-! ## The tolerant walk -/

/-- The whitelist behind an assignment has the root of its name. -/
def permitRoot (whitelist : Entries) (ref : Reference) : Entries :=
  if ref.root ∈ Keyed.keys whitelist then whitelist else Keyed.put ref.root .any whitelist

/-- The findings of a tolerant walk over references that are judged: reads get their verdicts, and
assignments add to the whitelist. -/
def tolerantFindings (unit : String) : Entries → List Reference → List Diagnostic
  | _, [] => []
  | whitelist, ref :: rest =>
    if ref.write then tolerantFindings unit (permitRoot whitelist ref) rest
    else (verdict unit whitelist ref).toList ++ tolerantFindings unit whitelist rest

/-- An assignment adds its root to the keys and removes none. -/
theorem mem_keys_permitRoot {whitelist : Entries} {ref : Reference} {key : String} :
    key ∈ Keyed.keys (permitRoot whitelist ref) ↔ key = ref.root ∨ key ∈ Keyed.keys whitelist := by
  unfold permitRoot
  split
  case isTrue hroot =>
      constructor
      · exact Or.inr
      · rintro (rfl | h)
        · exact hroot
        · exact h
  case isFalse => exact Keyed.mem_keys_put

section

variable {options : ScopingOptions} {report : ReferenceReport} {outcomes : List RequirementOutcome}
  {base : Entries} {unit : String}

/-- **One step** of a tolerant walk. -/
theorem walkReference_tolerant (htolerant : options.tolerant = true) (state : PolicyState)
    (ref : Reference) :
    let next := walkReference options unit report outcomes (skippedRoots options report) state ref
    (next.working.entries =
        if ref.root ∉ skippedRoots options report ∧ ref.write = true then
          permitRoot state.working.entries ref
        else state.working.entries)
      ∧ next.found = state.found ++
        if ref.root ∉ skippedRoots options report ∧ ref.write = false then
          (verdict unit state.working.entries ref).toList
        else [] := by
  unfold walkReference liesBehind
  by_cases hskipped : ref.root ∈ skippedRoots options report
  · simp [htolerant, hskipped]
  · cases hwrite : ref.write with
    | true =>
        have hpermit : (if (state.working.resolve ref.name).rootResolved then state.working
              else state.working.bind ref.root .any).entries
            = permitRoot state.working.entries ref := by
          rw [ScopedWhitelist.resolve, rootResolved_eq]
          unfold permitRoot
          by_cases hroot : ref.root ∈ Keyed.keys state.working.entries <;> simp [hroot]
        simp [htolerant, hskipped, hwrite, checkReference, ← hpermit]
    | false =>
        rw [← judge_eq_verdict]
        cases hjudge : judge (resolve state.working.entries ref.name) ref <;>
          simp [htolerant, hskipped, hwrite, checkReference, ScopedWhitelist.resolve, hjudge]

/-- **A whole tolerant walk.** -/
theorem found_foldl_tolerant (htolerant : options.tolerant = true) (references : List Reference)
    (state : PolicyState) :
    (references.foldl
        (walkReference options unit report outcomes (skippedRoots options report)) state).found
      = state.found ++ tolerantFindings unit state.working.entries
        (references.filter fun ref => ref.root ∉ skippedRoots options report) := by
  induction references generalizing state with
  | nil => simp [tolerantFindings]
  | cons ref rest ih =>
      obtain ⟨hentries, hfound⟩ := walkReference_tolerant htolerant state ref
      rw [List.foldl_cons, ih, hfound, hentries, List.append_assoc]
      congr 1
      by_cases hskipped : ref.root ∈ skippedRoots options report
      · simp [hskipped]
      · rw [List.filter_cons_of_pos (by simpa using hskipped), tolerantFindings]
        cases hwrite : ref.write <;> simp [hskipped]

/-- The findings on a unit in tolerant mode. -/
theorem diagnostics_evaluate_tolerant (htolerant : options.tolerant = true) :
    (evaluate options base unit report outcomes).1.diagnostics
      = (if options.loadRequires then outcomes.filterMap (requireFailure? unit) else [])
        ++ tolerantFindings unit (whitelistBefore options report outcomes base)
          (judgedReferences options report) := by
  rw [← unresolved_eq, ← entries_setup]
  unfold evaluate
  dsimp only
  congr 1
  exact found_foldl_tolerant htolerant (inLineOrder report.references) _

/-- The errors on a unit in tolerant mode are those of the walk. -/
theorem errors_evaluate_tolerant (htolerant : options.tolerant = true) :
    (evaluate options base unit report outcomes).1.errors
      = (tolerantFindings unit (whitelistBefore options report outcomes base)
          (judgedReferences options report)).filter (·.isError) := by
  rw [UnitResult.errors, diagnostics_evaluate_tolerant htolerant, List.filter_append]
  cases options.loadRequires <;> simp [errors_requireFailure?]

end

/-! ## Both walks -/

/-- Whether a finding lies behind a bare declaration and its name has the root of a name that the
unit defines. -/
def rebound (report : ReferenceReport) (diagnostic : Diagnostic) : Bool :=
  report.remark.isOpen && report.remark.line < diagnostic.line
    && diagnostic.name.any fun name =>
      (definedNames report).any fun defined => Text.root defined == Text.root name

/-- A read is rebound when the unit defines its root and it lies behind a bare declaration. -/
theorem rebound_undefinedGet {report : ReferenceReport} {unit : String} {ref : Reference} :
    rebound report (undefinedGet unit ref) = true ↔
      (report.remark.isOpen = true ∧ report.remark.line < ref.line)
        ∧ ∃ name ∈ definedNames report, Text.root name = ref.root := by
  simp only [rebound, undefinedGet, Reference.root, Bool.and_eq_true, Option.any_some,
    List.any_eq_true, beq_iff_eq]
  constructor
  · rintro ⟨⟨hopen, hline⟩, hdefined⟩
    exact ⟨⟨hopen, of_decide_eq_true hline⟩, hdefined⟩
  · rintro ⟨⟨hopen, hline⟩, hdefined⟩
    exact ⟨⟨hopen, decide_eq_true hline⟩, hdefined⟩

section

variable {globalsWithinModule loadRequires : Bool} {base : Entries} {unit : String}
  {report : ReferenceReport} {outcomes : List RequirementOutcome}

/-- A tolerant walk starts with at least the names that a plain walk has before the
declaration. -/
theorem mem_keys_whitelistBefore_tolerant {key : String}
    (h : key ∈ Keyed.keys
      (whitelistBefore ⟨false, globalsWithinModule, loadRequires⟩ report outcomes base)) :
    key ∈ Keyed.keys
      (whitelistBefore ⟨true, globalsWithinModule, loadRequires⟩ report outcomes base) := by
  rw [mem_keys_whitelistBefore] at h ⊢
  rcases h with hlocal | ⟨hearly, hdefined⟩
  · exact Or.inl hlocal
  · refine Or.inr ⟨?_, hdefined⟩
    unfold permitsEarly at hearly ⊢
    rw [Bool.and_eq_true] at hearly ⊢
    exact ⟨hearly.1, rfl⟩

/-- **What a plain walk knows on a line, a tolerant walk knows from the start**, but for what a bare
declaration rebinds. -/
theorem mem_keys_whitelistOn {key : String} {line : Int}
    (h : key ∈ Keyed.keys
      (whitelistOn ⟨false, globalsWithinModule, loadRequires⟩ report outcomes base line)) :
    key ∈ Keyed.keys
        (whitelistBefore ⟨true, globalsWithinModule, loadRequires⟩ report outcomes base)
      ∨ (report.remark.isOpen = true ∧ report.remark.line < line)
        ∧ ∃ name ∈ definedNames report, Text.root name = key := by
  unfold whitelistOn at h
  split at h
  -- Only behind a bare declaration is there anything that a tolerant walk does not start with.
  case isFalse => exact Or.inl (mem_keys_whitelistBefore_tolerant h)
  case isTrue hbehind =>
      rw [Bool.and_eq_true, decide_eq_true_eq] at hbehind
      obtain ⟨hdeclared, hline⟩ := hbehind
      unfold whitelistBehind at h
      cases hstrict : report.remark.strict with
      | true =>
          rw [hstrict, if_pos rfl] at h
          cases globalsWithinModule with
          | false => exact Or.inl (mem_keys_whitelistBefore_tolerant h)
          | true =>
              rcases mem_keys_withDefined.mp h with hbefore | hdefined
              · exact Or.inl (mem_keys_whitelistBefore_tolerant hbefore)
              · exact Or.inl (mem_keys_whitelistBefore.mpr (Or.inr ⟨rfl, hdefined⟩))
      | false =>
          rw [hstrict, if_neg Bool.false_ne_true] at h
          rcases mem_keys_withLocals.mp h with hlocal | hwritten
          · refine Or.inl (mem_keys_whitelistBefore.mpr (Or.inl ?_))
            exact mem_keys_withLocals.mpr (Or.inl hlocal)
          · have hopen : report.remark.isOpen = true := by
              rw [ModuleRemark.isOpen, hdeclared, hstrict]
              rfl
            exact Or.inr ⟨⟨hopen, hline⟩, mem_keys_writtenBindings.mp hwritten⟩

/-- Behind a bare declaration a plain walk knows all roots that the unit defines. -/
theorem mem_keys_whitelistOn_of_rebound {key : String} {line : Int}
    (hopen : report.remark.isOpen = true) (hline : report.remark.line < line)
    (hdefined : ∃ name ∈ definedNames report, Text.root name = key) :
    key ∈ Keyed.keys
      (whitelistOn ⟨false, globalsWithinModule, loadRequires⟩ report outcomes base line) := by
  rw [ModuleRemark.isOpen, Bool.and_eq_true, Bool.not_eq_true'] at hopen
  obtain ⟨hdeclared, hstrict⟩ := hopen
  unfold whitelistOn whitelistBehind
  rw [hdeclared, hstrict, if_pos (by simpa using hline), if_neg Bool.false_ne_true,
    mem_keys_withLocals]
  exact Or.inr (mem_keys_writtenBindings.mpr hdefined)

end

/-- An error of a tolerant walk is a read whose root the walk did not know at its start. -/
theorem exists_of_mem_tolerantFindings {unit : String} {whitelist : Entries}
    {references : List Reference} {diagnostic : Diagnostic}
    (h : diagnostic ∈ (tolerantFindings unit whitelist references).filter (·.isError)) :
    ∃ ref ∈ references, ref.write = false ∧ ref.root ∉ Keyed.keys whitelist
      ∧ diagnostic = undefinedGet unit ref := by
  induction references generalizing whitelist with
  | nil => simp [tolerantFindings] at h
  | cons ref rest ih =>
      unfold tolerantFindings at h
      cases hwrite : ref.write with
      | true =>
          rw [hwrite, if_pos rfl] at h
          obtain ⟨later, hmem, hread, hroot, hdiagnostic⟩ := ih h
          refine ⟨later, List.mem_cons_of_mem _ hmem, hread, ?_, hdiagnostic⟩
          intro hknown
          exact hroot (mem_keys_permitRoot.mpr (Or.inr hknown))
      | false =>
          rw [hwrite, if_neg Bool.false_ne_true, List.filter_append, List.mem_append,
            errors_verdict unit hwrite] at h
          rcases h with hhere | hlater
          · split at hhere
            case isTrue => exact absurd hhere List.not_mem_nil
            case isFalse hroot =>
                exact ⟨ref, List.mem_cons_self, hwrite, hroot, List.mem_singleton.mp hhere⟩
          · obtain ⟨later, hmem, hlater⟩ := ih hlater
            exact ⟨later, List.mem_cons_of_mem _ hmem, hlater⟩

/-- **An error of a tolerant walk is one of a plain walk**, unless it is an exception and the plain
walk knows its root. -/
theorem errors_tolerantFindings_sublist {unit : String} {plain : Int → Entries}
    {excepted : Diagnostic → Bool} {whitelist : Entries} {references : List Reference}
    (h : ∀ ref ∈ references, ref.root ∈ Keyed.keys (plain ref.line) →
      ref.root ∈ Keyed.keys whitelist ∨ excepted (undefinedGet unit ref) = true) :
    (((tolerantFindings unit whitelist references).filter (·.isError)).filter
        (!excepted ·)).Sublist
      ((references.filterMap fun ref => verdict unit (plain ref.line) ref).filter
        (·.isError)) := by
  induction references generalizing whitelist with
  | nil => simp [tolerantFindings]
  | cons ref rest ih =>
      have hsplit : (ref :: rest).filterMap (fun ref => verdict unit (plain ref.line) ref)
          = (verdict unit (plain ref.line) ref).toList
            ++ rest.filterMap fun ref => verdict unit (plain ref.line) ref := by
        rw [List.filterMap_cons]
        cases verdict unit (plain ref.line) ref <;> rfl
      rw [tolerantFindings, hsplit, List.filter_append]
      cases hwrite : ref.write with
      | true =>
          -- The plain walk may find the assignment wrong; the tolerant one only learns its root.
          rw [if_pos rfl]
          refine (ih ?_).trans (List.sublist_append_right _ _)
          intro later hmem hknown
          rcases h later (List.mem_cons_of_mem _ hmem) hknown with hroot | hexcepted
          · exact Or.inl (mem_keys_permitRoot.mpr (Or.inr hroot))
          · exact Or.inr hexcepted
      | false =>
          rw [if_neg Bool.false_ne_true, List.filter_append, List.filter_append]
          refine List.Sublist.append ?_ (ih fun later hmem => h later (List.mem_cons_of_mem _ hmem))
          rw [errors_verdict unit hwrite, errors_verdict unit hwrite]
          have hhere := h ref List.mem_cons_self
          by_cases hroot : ref.root ∈ Keyed.keys whitelist
          · simp [hroot]
          · by_cases hexcepted : excepted (undefinedGet unit ref) = true
            · simp [hroot, hexcepted]
            · have hunknown : ref.root ∉ Keyed.keys (plain ref.line) := by
                intro hknown
                rcases hhere hknown with hroot' | hexcepted'
                · exact hroot hroot'
                · exact hexcepted hexcepted'
              simp [hroot, hexcepted, hunknown]

/-! ## What tolerance adds -/

section

variable {globalsWithinModule loadRequires : Bool} {base : Entries} {unit : String}
  {report : ReferenceReport} {outcomes : List RequirementOutcome}

/-- An error in tolerant mode is a read whose root is not known at the start. -/
theorem exists_of_mem_errors_tolerant {diagnostic : Diagnostic}
    (h : diagnostic ∈ (evaluate ⟨true, globalsWithinModule, loadRequires⟩ base unit report
      outcomes).1.errors) :
    ∃ ref ∈ report.references, ref.write = false
      ∧ ref.root ∉ Keyed.keys
        (whitelistBefore ⟨true, globalsWithinModule, loadRequires⟩ report outcomes base)
      ∧ diagnostic = undefinedGet unit ref := by
  rw [errors_evaluate_tolerant rfl] at h
  obtain ⟨ref, hmem, hread, hroot, hdiagnostic⟩ := exists_of_mem_tolerantFindings h
  exact ⟨ref, mem_inLineOrder.mp (List.mem_filter.mp hmem).1, hread, hroot, hdiagnostic⟩

/-- What a bare declaration rebinds is no error outside tolerant mode. -/
theorem not_mem_errors_of_rebound {ref : Reference}
    (h : rebound report (undefinedGet unit ref) = true) :
    undefinedGet unit ref ∉ (evaluate ⟨false, globalsWithinModule, loadRequires⟩ base unit report
      outcomes).1.errors := by
  intro hmem
  obtain ⟨⟨hopen, hline⟩, hdefined⟩ := rebound_undefinedGet.mp h
  -- Another reference may have made the finding, but only one with this name on this line.
  rw [errors_evaluate rfl, List.mem_filter, List.mem_filterMap] at hmem
  obtain ⟨⟨other, -, hverdict⟩, -⟩ := hmem
  obtain ⟨hname, hlineEq, hroot⟩ := root_not_mem_of_verdict_eq hverdict
  refine hroot (mem_keys_whitelistOn_of_rebound hopen (hlineEq ▸ hline) ?_)
  rw [Reference.root, hname]
  exact hdefined

/-- Names that are permitted anyway leave nothing to rebind. -/
theorem not_rebound {ref : Reference} (hpermitted : globalsWithinModule = true)
    (hroot : ref.root ∉ Keyed.keys
      (whitelistBefore ⟨true, globalsWithinModule, loadRequires⟩ report outcomes base)) :
    rebound report (undefinedGet unit ref) = false := by
  rw [← Bool.not_eq_true]
  intro hrebound
  refine hroot (mem_keys_whitelistBefore.mpr (Or.inr ⟨?_, (rebound_undefinedGet.mp hrebound).2⟩))
  rw [permitsEarly, hpermitted]
  rfl

/-- The errors of a tolerant check that nothing rebinds are errors of a plain check. -/
theorem errors_filter_not_rebound_sublist :
    ((evaluate ⟨true, globalsWithinModule, loadRequires⟩ base unit report
        outcomes).1.errors.filter (!rebound report ·)).Sublist
      (evaluate ⟨false, globalsWithinModule, loadRequires⟩ base unit report outcomes).1.errors := by
  rw [errors_evaluate_tolerant rfl, errors_evaluate rfl]
  refine errors_tolerantFindings_sublist ?_
  intro ref _ hknown
  rcases mem_keys_whitelistOn hknown with hroot | hrebound
  · exact Or.inl hroot
  · exact Or.inr (rebound_undefinedGet.mpr hrebound)

end

/-- **Tolerance adds no error but for what a bare declaration rebinds.** The errors of a tolerant
check are, in their order, errors of a plain check, except for the reads behind a bare declaration
whose root the unit defines itself: these are errors in tolerant mode alone, and there are none when
the defined names are permitted anyway. -/
theorem tolerant_errors_sublist (globalsWithinModule loadRequires : Bool) (base : Entries)
    (unit : String) (report : ReferenceReport) (outcomes : List RequirementOutcome) :
    let plain := (evaluate ⟨false, globalsWithinModule, loadRequires⟩ base unit report outcomes).1
    let tolerant := (evaluate ⟨true, globalsWithinModule, loadRequires⟩ base unit report outcomes).1
    (tolerant.errors.filter (!rebound report ·)).Sublist plain.errors
      ∧ (∀ diagnostic ∈ tolerant.errors,
          (∃ ref ∈ report.references, ref.write = false ∧ diagnostic = undefinedGet unit ref)
            ∧ (diagnostic ∈ plain.errors ↔ rebound report diagnostic = false))
      ∧ (globalsWithinModule = true ∨ report.remark.isOpen = false →
          tolerant.errors.Sublist plain.errors
            ∧ (plain.success = true → tolerant.success = true)) := by
  intro plain tolerant
  have hsublist : (tolerant.errors.filter (!rebound report ·)).Sublist plain.errors :=
    errors_filter_not_rebound_sublist
  refine ⟨hsublist, ?_, ?_⟩
  · intro diagnostic hmem
    obtain ⟨ref, href, hread, -, rfl⟩ := exists_of_mem_errors_tolerant hmem
    refine ⟨⟨ref, href, hread, rfl⟩, ?_, ?_⟩
    · intro hplain
      rw [← Bool.not_eq_true]
      exact fun hrebound => not_mem_errors_of_rebound hrebound hplain
    · intro hrebound
      exact hsublist.subset (List.mem_filter.mpr ⟨hmem, by rw [hrebound]; rfl⟩)
  · intro hcalm
    have hall : tolerant.errors.filter (!rebound report ·) = tolerant.errors := by
      rw [List.filter_eq_self]
      intro diagnostic hmem
      obtain ⟨ref, -, -, hroot, rfl⟩ := exists_of_mem_errors_tolerant hmem
      rw [Bool.not_eq_true']
      rcases hcalm with hpermitted | hclosed
      · exact not_rebound hpermitted hroot
      · rw [rebound, hclosed]
        rfl
    rw [hall] at hsublist
    refine ⟨hsublist, ?_⟩
    rw [UnitResult.success_iff, UnitResult.success_iff]
    intro hnone
    rw [hnone] at hsublist
    exact List.sublist_nil.mp hsublist

/-- A unit that declares itself a module, reads a name and defines it on the next line. -/
def lateDefinition : ReferenceReport :=
  { references := [⟨2, "f", false⟩, ⟨3, "f", true⟩]
    requirements := []
    remark := { ModuleRemark.absent with declared := true, line := 1 } }

/-- A late definition passes outside tolerant mode alone: only there does the declaration bind the
name before it is read. -/
theorem lateDefinition_fails_in_tolerant_mode :
    let plain := (evaluate ⟨false, false, false⟩ [("print", .symbol "bool")] "u.lua"
      lateDefinition []).1
    let tolerant := (evaluate ⟨true, false, false⟩ [("print", .symbol "bool")] "u.lua"
      lateDefinition []).1
    plain.success = true ∧ tolerant.success = false
      ∧ ∃ diagnostic ∈ tolerant.errors, diagnostic ∉ plain.errors := by
  intro plain tolerant
  have hplain : plain.success = true := by cbv
  have hmem : undefinedGet "u.lua" ⟨2, "f", false⟩ ∈ tolerant.errors := by
    have hjudged : judgedReferences ⟨true, false, false⟩ lateDefinition
        = [⟨2, "f", false⟩, ⟨3, "f", true⟩] := by cbv
    have hroot : Reference.root ⟨2, "f", false⟩ ∉ Keyed.keys
        (whitelistBefore ⟨true, false, false⟩ lateDefinition [] [("print", .symbol "bool")]) := by
      decide
    rw [errors_evaluate_tolerant rfl, hjudged, tolerantFindings, if_neg Bool.false_ne_true,
      List.filter_append, errors_verdict "u.lua" rfl, if_neg hroot]
    exact List.mem_append_left _ List.mem_cons_self
  have hfails : ¬tolerant.success = true := by
    rw [UnitResult.success_iff]
    exact List.ne_nil_of_mem hmem
  refine ⟨hplain, Bool.not_eq_true _ ▸ hfails, _, hmem, ?_⟩
  rw [(UnitResult.success_iff plain).mp hplain]
  exact List.not_mem_nil

/-- Where defined names are permitted, a late definition passes in tolerant mode as well. -/
theorem lateDefinition_passes_where_permitted :
    (evaluate ⟨true, true, false⟩ [("print", .symbol "bool")] "u.lua"
      lateDefinition []).1.success = true := by
  have hplain : (evaluate ⟨false, true, false⟩ [("print", .symbol "bool")] "u.lua"
      lateDefinition []).1.success = true := by cbv
  exact ((tolerant_errors_sublist true false [("print", .symbol "bool")] "u.lua"
    lateDefinition []).2.2 (Or.inl rfl)).2 hplain

end LuaGlobals
