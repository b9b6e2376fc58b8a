import LuaGlobals.Proofs.Policy.Verdict

/-! # The walk has no history

Outside tolerant mode nothing that the walk meets changes the verdict on a later reference: the
whitelist is swapped once, and the order of the lines puts the swap where the declaration is.

* `LineOrder` says what the order of the walk is.
* **`WhitelistStanding`** is the invariant of the walk, `standing_walkReference` its step.
* **`evaluate_eq_verdicts`**: the findings on a unit are verdicts by the whitelists of lines. -/

namespace LuaGlobals

open Whitelist

/-! ## The order of the walk -/

/-- A list has the references of another one by their lines, those on one line in their old
order. -/
structure LineOrder (references ordered : List Reference) : Prop where
  /-- No reference stands behind one of a later line. -/
  ascending : ordered.Pairwise (·.line ≤ ·.line)
  /-- Each line has its references in their old order. -/
  stable : ∀ line, ordered.filter (·.line = line) = references.filter (·.line = line)

/-- The test that orders references is transitive. -/
theorem line_le_trans (a b c : Reference) :
    decide (a.line ≤ b.line) → decide (b.line ≤ c.line) → decide (a.line ≤ c.line) := by
  simp only [decide_eq_true_eq]
  exact Int.le_trans

/-- The test that orders references is total. -/
theorem line_le_total (a b : Reference) :
    (decide (a.line ≤ b.line) || decide (b.line ≤ a.line)) = true := by
  simp only [Bool.or_eq_true, decide_eq_true_eq]
  exact Int.le_total a.line b.line

/-- The walk goes by the lines. -/
theorem pairwise_inLineOrder (references : List Reference) :
    (inLineOrder references).Pairwise (·.line ≤ ·.line) := by
  refine (List.pairwise_mergeSort line_le_trans line_le_total references).imp ?_
  intro a b hle
  exact of_decide_eq_true hle

/-- The walk meets the references of a unit. -/
theorem mem_inLineOrder {references : List Reference} {ref : Reference} :
    ref ∈ inLineOrder references ↔ ref ∈ references :=
  List.mem_mergeSort

/-- **The walk goes by the lines and keeps the order on each line.** -/
theorem lineOrder_inLineOrder (references : List Reference) :
    LineOrder references (inLineOrder references) where
  ascending := pairwise_inLineOrder references
  stable line := by
    have hordered : (references.filter (·.line = line)).Pairwise
        fun a b => decide (a.line ≤ b.line) := by
      refine List.pairwise_of_forall_mem_list ?_
      intro a ha b hb
      simp only [List.mem_filter, decide_eq_true_eq] at ha hb ⊢
      omega
    have hsublist : (references.filter (·.line = line)).Sublist (inLineOrder references) :=
      List.sublist_mergeSort line_le_trans line_le_total hordered List.filter_sublist
    -- A sublist with as many references of the line as there are is all of them.
    have hfiltered := hsublist.filter (·.line = line)
    rw [List.filter_filter] at hfiltered
    simp only [Bool.and_self] at hfiltered
    have hperm := (List.mergeSort_perm references fun ref other => ref.line ≤ other.line).filter
      (·.line = line)
    exact (hfiltered.eq_of_length hperm.length_eq.symm).symm

/-! ## One step -/

/-- The references to these roots are not judged: the aliases of modules that are not loaded. -/
def skippedRoots (options : ScopingOptions) (report : ReferenceReport) : List String :=
  if options.loadRequires then [] else report.aliases

/-- The references that are judged, in the order of the walk. -/
def judgedReferences (options : ScopingOptions) (report : ReferenceReport) : List Reference :=
  (inLineOrder report.references).filter fun ref => ref.root ∉ skippedRoots options report

section

variable {options : ScopingOptions} {report : ReferenceReport} {outcomes : List RequirementOutcome}
  {base : Entries} {unit : String}

/-- **The whitelist stands on its side of the declaration**: it is the one behind exactly when the
declaration was crossed, and it was crossed only on a line behind. -/
structure WhitelistStanding (options : ScopingOptions) (report : ReferenceReport)
    (outcomes : List RequirementOutcome) (base : Entries) (state : PolicyState) (line : Int) :
    Prop where
  /-- The side of the declaration fixes the whitelist. -/
  entries : state.working.entries =
    if state.crossed then whitelistBehind options report outcomes base
    else whitelistBefore options report outcomes base
  /-- What was crossed lies before the line. -/
  behind : state.crossed = true → report.remark.declared = true ∧ report.remark.line < line

/-- Later lines leave the declaration behind as well. -/
theorem WhitelistStanding.mono {state : PolicyState} {line later : Int}
    (h : WhitelistStanding options report outcomes base state line) (hle : line ≤ later) :
    WhitelistStanding options report outcomes base state later where
  entries := h.entries
  behind hcrossed := ⟨(h.behind hcrossed).1, Int.lt_of_lt_of_le (h.behind hcrossed).2 hle⟩

/-- At a reference the walk has the whitelist of its line. -/
theorem entries_at_reference (htolerant : options.tolerant = false) {state : PolicyState}
    {ref : Reference} (h : WhitelistStanding options report outcomes base state ref.line) :
    let crossing := liesBehind options report.remark ref && !state.crossed
    let working := if crossing then crossDeclaration options report outcomes state.working
      else state.working
    working.entries = whitelistOn options report outcomes base ref.line
      ∧ (state.crossed || crossing)
        = (report.remark.declared && decide (report.remark.line < ref.line)) := by
  unfold whitelistOn liesBehind
  rw [htolerant]
  cases hcrossed : state.crossed with
  | true =>
      -- Once crossed, the declaration lies behind this line as well, and nothing is swapped again.
      obtain ⟨hdeclared, hline⟩ := h.behind hcrossed
      have hentries := h.entries
      rw [hcrossed] at hentries
      simpa [hdeclared, hline] using hentries
  | false =>
      have hentries := h.entries
      rw [hcrossed] at hentries
      cases hdeclared : report.remark.declared with
      | false => simpa using hentries
      | true =>
          by_cases hline : report.remark.line < ref.line
          · simpa [hline] using entries_crossDeclaration htolerant hdeclared hentries
          · simpa [hline] using hentries

/-- **One step**: the walk adds the verdict by the whitelist of the line, unless the reference is
skipped, and keeps standing. -/
theorem standing_walkReference (htolerant : options.tolerant = false) {state : PolicyState}
    {ref : Reference} (h : WhitelistStanding options report outcomes base state ref.line) :
    let next := walkReference options unit report outcomes (skippedRoots options report) state ref
    WhitelistStanding options report outcomes base next ref.line
      ∧ next.found = state.found ++
        if ref.root ∈ skippedRoots options report then []
        else (verdict unit (whitelistOn options report outcomes base ref.line) ref).toList := by
  obtain ⟨hentries, hcrossed⟩ := entries_at_reference htolerant h
  have hside : whitelistOn options report outcomes base ref.line =
      if report.remark.declared && decide (report.remark.line < ref.line) then
        whitelistBehind options report outcomes base
      else whitelistBefore options report outcomes base := rfl
  have hbehind : (report.remark.declared && decide (report.remark.line < ref.line)) = true →
      report.remark.declared = true ∧ report.remark.line < ref.line := by
    simp
  unfold walkReference
  by_cases hskipped : ref.root ∈ skippedRoots options report
  · simp only [List.contains_eq_mem, hskipped, decide_true, if_true, List.append_nil, and_true]
    constructor
    · rw [hcrossed, hentries, hside]
    · rw [hcrossed]
      exact hbehind
  · simp only [List.contains_eq_mem, hskipped, decide_false, Bool.false_eq_true, if_false,
      checkReference, htolerant, Bool.false_and, ScopedWhitelist.resolve, hentries]
    refine ⟨⟨?_, ?_⟩, ?_⟩
    · rw [hcrossed, hentries, hside]
    · rw [hcrossed]
      exact hbehind
    · rw [← judge_eq_verdict]
      cases judge (resolve (whitelistOn options report outcomes base ref.line) ref.name) ref with
      | none => simp
      | some finding => simp

/-! ## A whole walk -/

/-- **A whole walk** over references in the order of their lines adds their verdicts. -/
theorem found_foldl_walkReference (htolerant : options.tolerant = false)
    {references : List Reference} (hordered : references.Pairwise (·.line ≤ ·.line))
    {state : PolicyState}
    (h : ∀ ref ∈ references, WhitelistStanding options report outcomes base state ref.line) :
    (references.foldl
        (walkReference options unit report outcomes (skippedRoots options report)) state).found
      = state.found ++
        (references.filter fun ref => ref.root ∉ skippedRoots options report).filterMap fun ref =>
          verdict unit (whitelistOn options report outcomes base ref.line) ref := by
  -- The order of the lines carries the invariant from one reference to all later ones.
  induction references generalizing state with
  | nil => simp
  | cons ref rest ih =>
      obtain ⟨hrest, hordered⟩ := List.pairwise_cons.mp hordered
      obtain ⟨hnext, hfound⟩ :=
        standing_walkReference htolerant (h ref List.mem_cons_self)
      rw [List.foldl_cons, ih hordered fun later hmem => hnext.mono (hrest later hmem), hfound,
        List.append_assoc]
      congr 1
      by_cases hskipped : ref.root ∈ skippedRoots options report
      · simp [hskipped]
      · rw [if_neg hskipped, List.filter_cons_of_pos (by simpa using hskipped),
          List.filterMap_cons]
        cases verdict unit (whitelistOn options report outcomes base ref.line) ref <;> rfl

/-- The findings on a unit are the failed requirements, then the verdicts on its references. -/
theorem diagnostics_evaluate (htolerant : options.tolerant = false) :
    (evaluate options base unit report outcomes).1.diagnostics
      = (if options.loadRequires then outcomes.filterMap (requireFailure? unit) else [])
        ++ (judgedReferences options report).filterMap fun ref =>
          verdict unit (whitelistOn options report outcomes base ref.line) ref := by
  have hstart (line : Int) : WhitelistStanding options report outcomes base
      { working := setup options base report outcomes, crossed := false, found := [] } line :=
    { entries := entries_setup base, behind := fun h => absurd h Bool.false_ne_true }
  rw [← unresolved_eq]
  unfold evaluate
  dsimp only
  congr 1
  exact found_foldl_walkReference htolerant (pairwise_inLineOrder report.references)
    fun ref _ => hstart ref.line

/-- The errors on a unit outside tolerant mode are those of the verdicts. -/
theorem errors_evaluate (htolerant : options.tolerant = false) :
    (evaluate options base unit report outcomes).1.errors
      = ((judgedReferences options report).filterMap fun ref =>
          verdict unit (whitelistOn options report outcomes base ref.line) ref).filter
        (·.isError) := by
  rw [UnitResult.errors, diagnostics_evaluate htolerant, List.filter_append]
  cases options.loadRequires <;> simp [errors_requireFailure?]

end

/-! ## What the walk reports -/

/-- Every requirement has an outcome, in the order of the report. -/
theorem requirement_resolveRequirements (resolver? : Option (String → Except String Entries))
    (report : ReferenceReport) :
    (resolveRequirements resolver? report).map (·.requirement) = report.requirements := by
  rw [resolveRequirements, List.map_map]
  exact List.map_id report.requirements

/-- **Outside tolerant mode the walk has no history.** The findings on a unit are the requirements
that failed, in their order, then the verdicts on the judged references in the order of their
lines, where the whitelist depends on the line alone. The locals of the unit hide what lies below
them, and the last module resolved under an alias counts. -/
theorem evaluate_eq_verdicts (globalsWithinModule loadRequires : Bool) (base : Entries)
    (unit : String) (report : ReferenceReport) (outcomes : List RequirementOutcome) :
    let options : ScopingOptions := ⟨false, globalsWithinModule, loadRequires⟩
    ((evaluate options base unit report outcomes).1.diagnostics
        = (if loadRequires then outcomes.filterMap (requireFailure? unit) else [])
          ++ ((inLineOrder report.references).filter fun ref =>
              loadRequires || ref.root ∉ report.aliases).filterMap fun ref =>
            verdict unit (whitelistOn options report outcomes base ref.line) ref)
      ∧ LineOrder report.references (inLineOrder report.references)
      ∧ (∀ resolver? : Option (String → Except String Entries),
          (resolveRequirements resolver? report).map (·.requirement) = report.requirements)
      ∧ ∀ (entries : Entries) (name : String),
          Keyed.lookup? name (withLocals options report outcomes entries)
            = (localNode? options report outcomes name).or (Keyed.lookup? name entries) := by
  intro options
  refine ⟨?_, lineOrder_inLineOrder _, fun resolver? =>
    requirement_resolveRequirements resolver? report, fun entries name =>
    lookup?_withLocals entries name⟩
  have hjudged : judgedReferences options report
      = (inLineOrder report.references).filter fun ref =>
        loadRequires || ref.root ∉ report.aliases := by
    unfold judgedReferences skippedRoots
    cases loadRequires <;> simp [options]
  rw [diagnostics_evaluate rfl, hjudged]

end LuaGlobals
