import LuaGlobals.Proofs.Policy.Finding
import LuaGlobals.Proofs.Whitelist.Written

/-! # Names that a unit defines

A unit may be permitted the names that it defines. What it defines is never one of its locals, so
neither the order of the set-up nor the swap of the whitelist at a declaration takes the permission
away.

* `definitionsReach` tells on which lines the permission holds.
* **`node?_whitelistFor`**: a defined name and all that is below it is permitted there.
* **`defined_names_unreported`**: references to such names have no findings.
* **`definedNames_errors_eq`**: the permission removes the errors on roots that the unit defines,
  and changes no other. -/

namespace LuaGlobals

open Whitelist

/-! ## Defined names and locals -/

section

variable {options : ScopingOptions} {report : ReferenceReport} {outcomes : List RequirementOutcome}
  {base entries : Entries} {line : Int} {root name defined : String}

/-- The names that a unit defines: those that it assigns and the declared one, if their roots are no
locals. -/
theorem mem_definedNames :
    name ∈ definedNames report
      ↔ ((∃ ref ∈ report.references, ref.write = true ∧ ref.name = name)
          ∨ report.remark.declaredRoot? = some name)
        ∧ Text.root name ∉ localNames report := by
  simp [definedNames, and_assoc, or_and_right]

/-- The root of a defined name is no local. -/
theorem root_not_mem_localNames (hdefined : defined ∈ definedNames report) :
    Text.root defined ∉ localNames report :=
  (mem_definedNames.mp hdefined).2

/-- What a unit assigns below other roots than those of its locals is defined by it. -/
theorem mem_definedNames_of_write {written : Reference} (hwritten : written ∈ report.references)
    (hwrite : written.write = true) (hglobal : written.root ∉ localNames report) :
    written.name ∈ definedNames report :=
  mem_definedNames.mpr ⟨Or.inl ⟨written, hwritten, hwrite, rfl⟩, hglobal⟩

/-- The root of the declared name is defined by the unit, unless it is that of a local. -/
theorem mem_definedNames_of_declaredRoot? (hdeclared : report.remark.declaredRoot? = some name)
    (hglobal : Text.root name ∉ localNames report) : name ∈ definedNames report :=
  mem_definedNames.mpr ⟨Or.inr hdeclared, hglobal⟩

/-- A resolved module is bound to the local that receives it. -/
theorem receiver_of_binding? {outcome : RequirementOutcome} {node : Node}
    (h : outcome.binding? = some (name, node)) :
    outcome.requirement.receiver = some name ∧ name ≠ "" := by
  unfold RequirementOutcome.binding? at h
  split at h
  case h_2 => cases h
  case h_1 receiver hreceiver =>
      split at h
      case isTrue => cases h
      case isFalse hnamed =>
          cases h
          exact ⟨hreceiver, hnamed⟩

/-- A name that receives a resolved module is an alias. -/
theorem mem_aliases_of_binding? (houtcomes : outcomes.map (·.requirement) = report.requirements)
    {outcome : RequirementOutcome} (hmem : outcome ∈ outcomes) {node : Node}
    (hbinding : outcome.binding? = some (name, node)) : name ∈ report.aliases := by
  have hrequirement : outcome.requirement ∈ report.requirements := by
    rw [← houtcomes]
    exact List.mem_map_of_mem hmem
  obtain ⟨hreceiver, hnamed⟩ := receiver_of_binding? hbinding
  refine List.mem_filter.mpr ⟨?_, bne_iff_ne.mpr hnamed⟩
  exact List.mem_filterMap.mpr ⟨_, hrequirement, hreceiver⟩

/-- A name that is no local stands for nothing among the locals. -/
theorem localNode?_eq_none (houtcomes : outcomes.map (·.requirement) = report.requirements)
    (hglobal : name ∉ localNames report) : localNode? options report outcomes name = none := by
  rw [localNames, List.mem_append, not_or, Option.mem_toList] at hglobal
  obtain ⟨halias, hreturned⟩ := hglobal
  unfold localNode?
  rw [if_neg hreturned]
  split
  case isFalse => rfl
  case isTrue =>
      rw [List.findSome?_eq_none_iff]
      intro outcome hmem
      rw [Option.map_eq_none_iff, Option.filter_eq_none_iff]
      rintro ⟨receiver, node⟩ hbinding hname
      rw [decide_eq_true_eq] at hname
      subst hname
      exact halias (mem_aliases_of_binding? houtcomes (List.mem_reverse.mp hmem) hbinding)

/-! ## The whitelist with the defined names -/

/-- Defined names leave the entries of other roots as they are. -/
theorem lookup?_withDefined (hroot : ∀ defined ∈ definedNames report, Text.root defined ≠ root) :
    Keyed.lookup? root (withDefined report entries) = Keyed.lookup? root entries := by
  have hnone : Keyed.lookup? root (writtenBindings (definedNames report) entries) = none := by
    rw [Keyed.lookup?_eq_none_iff, mem_keys_writtenBindings]
    rintro ⟨defined, hdefined, hsame⟩
    exact hroot defined hdefined hsame
  rw [withDefined, lookup?_putAll_writtenBindings, boundNode?, hnone, Option.none_or]

/-- **A defined name permits everything below it.** -/
theorem node?_withDefined (entries : Entries) (hdefined : defined ∈ definedNames report)
    (hbelow : Text.components defined <+: Text.components name) :
    (resolve (withDefined report entries) name).node? = some .any := by
  obtain ⟨rest, hrest⟩ := Text.components_eq_cons name
  have hpath := (Text.root_cons_memberPath_prefix defined).trans hbelow
  rw [hrest, List.cons_prefix_cons] at hpath
  obtain ⟨hroot, hmembers⟩ := hpath
  -- The path of the defined name is one of those that are written below the root.
  have hpermitted : ∃ path ∈ pathsBelow (Text.root name)
      ((definedNames report).mergeSort (· ≤ ·)), path <+: rest :=
    exists_mem_pathsBelow.mpr ⟨defined, hdefined, hroot, hmembers⟩
  rw [node?_resolve, hrest, nodeAt?, withDefined]
  exact (permits_writtenBindings entries (definedNames report) (Text.root name)).permitted
    (Or.inl hpermitted)

/-- **A name leads somewhere beside the defined names** when it did before, or when one of it and the
path of some defined name starts with the other. -/
theorem isSome_node?_withDefined (entries : Entries) (name : String) :
    (resolve (withDefined report entries) name).node?.isSome
      ↔ (resolve entries name).node?.isSome
        ∨ ∃ defined ∈ definedNames report, writtenPath defined <+: Text.components name
          ∨ Text.components name <+: writtenPath defined := by
  obtain ⟨rest, hrest⟩ := Text.components_eq_cons name
  have hpermits := permits_writtenBindings entries (definedNames report) (Text.root name)
  rw [node?_resolve, node?_resolve, hrest, nodeAt?, nodeAt?, withDefined,
    hpermits.isSome_iff rest, exists_mem_pathsBelow]
  simp only [writtenPath, List.cons_prefix_cons, and_or_left, eq_comm (a := Text.root name)]

/-! ## Where defined names are permitted -/

/-- Whether definitions reach a line: only a declaration that keeps the globals in sight holds them
back in front of it, and a tolerant check takes no notice of it. -/
def definitionsReach (tolerant : Bool) (remark : ModuleRemark) (line : Int) : Bool :=
  tolerant || !(remark.declared && remark.strict) || remark.line < line

/-- The lines that definitions reach. -/
theorem definitionsReach_iff {tolerant : Bool} {remark : ModuleRemark} :
    definitionsReach tolerant remark line = true ↔
      tolerant = true ∨ ¬(remark.declared = true ∧ remark.strict = true) ∨ remark.line < line := by
  simp only [definitionsReach, Bool.or_eq_true, Bool.not_eq_true', ← Bool.not_eq_true,
    Bool.and_eq_true, decide_eq_true_eq, or_assoc]

/-- **What a unit defines is permitted on each line that its definitions reach**, on both sides of a
bare declaration. -/
theorem node?_whitelistFor (houtcomes : outcomes.map (·.requirement) = report.requirements)
    (hpermitted : options.globalsWithinModule = true)
    (hreach : definitionsReach options.tolerant report.remark line = true)
    (hdefined : defined ∈ definedNames report)
    (hbelow : Text.components defined <+: Text.components name) :
    (resolve (whitelistFor options report outcomes base line) name).node? = some .any := by
  have hbefore (hearly : permitsEarly options report = true) :
      (resolve (whitelistBefore options report outcomes base) name).node? = some .any := by
    rw [whitelistBefore, if_pos hearly]
    exact node?_withDefined _ hdefined hbelow
  have hbehind : (resolve (whitelistBehind options report outcomes base) name).node?
      = some .any := by
    unfold whitelistBehind
    rw [hpermitted]
    -- A bare declaration starts an environment of its own, with the locals over the definitions.
    cases report.remark.strict with
    | true => exact node?_withDefined _ hdefined hbelow
    | false =>
        -- No local hides the root of a defined name in the environment of the unit.
        have hroot : Text.root name = Text.root defined := by
          obtain ⟨rest, hrest⟩ := Text.components_eq_cons name
          obtain ⟨members, hmembers⟩ := Text.components_eq_cons defined
          rw [hrest, hmembers, List.cons_prefix_cons] at hbelow
          exact hbelow.1.symm
        have hglobal : localNode? options report outcomes (Text.root name) = none := by
          rw [hroot]
          exact localNode?_eq_none houtcomes (root_not_mem_localNames hdefined)
        have hsame : resolve (withLocals options report outcomes
              (writtenBindings (definedNames report) [])) name
            = resolve (withDefined report []) name := by
          apply resolve_congr
          rw [lookup?_withLocals, hglobal, Option.none_or, withDefined,
            lookup?_putAll_nil_writtenBindings]
        rw [if_neg Bool.false_ne_true, hsame]
        exact node?_withDefined _ hdefined hbelow
  rw [whitelistFor_eq]
  split
  case isTrue => exact hbehind
  case isFalse hfront =>
      apply hbefore
      rw [permitsEarly, hpermitted, Bool.true_and]
      rcases (Bool.or_eq_true _ _).mp hreach with hearly | hline
      · exact hearly
      · -- The line is no longer in front of a declaration, so there is none that counts.
        rw [hline, Bool.and_true] at hfront
        cases htolerant : options.tolerant <;> cases hdeclared : report.remark.declared <;>
          simp [htolerant, hdeclared] at hfront ⊢

/-- The whitelist of a line is the same with and without the permission, but for the roots that a
unit defines on the lines that its definitions reach. -/
theorem lookup?_whitelistFor (tolerant loadRequires : Bool)
    (h : definitionsReach tolerant report.remark line = false
      ∨ ∀ defined ∈ definedNames report, Text.root defined ≠ root) :
    Keyed.lookup? root (whitelistFor ⟨tolerant, true, loadRequires⟩ report outcomes base line)
      = Keyed.lookup? root
        (whitelistFor ⟨tolerant, false, loadRequires⟩ report outcomes base line) := by
  -- The locals do not depend on the permission.
  have hlocals (entries : Entries) :
      withLocals ⟨tolerant, true, loadRequires⟩ report outcomes entries
        = withLocals ⟨tolerant, false, loadRequires⟩ report outcomes entries := rfl
  have hbefore (h : permitsEarly ⟨tolerant, true, loadRequires⟩ report = false
        ∨ ∀ defined ∈ definedNames report, Text.root defined ≠ root) :
      Keyed.lookup? root (whitelistBefore ⟨tolerant, true, loadRequires⟩ report outcomes base)
        = Keyed.lookup? root
          (whitelistBefore ⟨tolerant, false, loadRequires⟩ report outcomes base) := by
    have hplain : permitsEarly ⟨tolerant, false, loadRequires⟩ report = false := rfl
    unfold whitelistBefore
    rw [hplain, hlocals, if_neg Bool.false_ne_true]
    split
    case isFalse => rfl
    case isTrue hearly =>
        rcases h with hlate | hroot
        · rw [hlate] at hearly
          cases hearly
        · exact lookup?_withDefined hroot
  rw [whitelistFor_eq, whitelistFor_eq]
  split
  case isFalse =>
      apply hbefore
      rcases h with hreach | hroot
      · left
        rw [definitionsReach, Bool.or_eq_false_iff] at hreach
        rw [permitsEarly, Bool.true_and, hreach.1]
      · exact Or.inr hroot
  case isTrue hside =>
      rcases h with hreach | hroot
      · rw [definitionsReach, Bool.or_eq_false_iff] at hreach
        rw [hreach.2, Bool.and_false, Bool.and_false] at hside
        cases hside
      · unfold whitelistBehind
        cases report.remark.strict with
        | true => exact (lookup?_withDefined hroot).trans (hbefore (Or.inr hroot))
        | false => exact congrArg _ (hlocals _)

end

/-! ## What the permission does to a check -/

/-- Whether a finding is about a root that the unit defines, on a line that its definitions
reach. -/
def excused (tolerant : Bool) (report : ReferenceReport) (diagnostic : Diagnostic) : Bool :=
  definitionsReach tolerant report.remark diagnostic.line
    && diagnostic.name.any fun name =>
      (definedNames report).any fun defined => Text.root defined == Text.root name

section

variable {tolerant loadRequires : Bool} {base : Entries} {unit : String} {report : ReferenceReport}
  {outcomes : List RequirementOutcome} {earlier : List Reference} {ref : Reference}

/-- The finding on a reference is excused when definitions reach its line and give its root. -/
theorem excused_iff {diagnostic : Diagnostic} (hline : diagnostic.line = ref.line)
    (hname : diagnostic.name = some ref.name) :
    excused tolerant report diagnostic = true ↔
      definitionsReach tolerant report.remark ref.line = true
        ∧ ∃ defined ∈ definedNames report, Text.root defined = ref.root := by
  simp only [excused, hline, hname, Reference.root, Bool.and_eq_true, Option.any_some,
    List.any_eq_true, beq_iff_eq]

/-- **No error is about a root that a unit defines** on a line that its definitions reach, where
they are permitted. -/
theorem isError_findingOn_of_defined
    (houtcomes : outcomes.map (·.requirement) = report.requirements)
    (href : ref ∈ report.references)
    (hreach : definitionsReach tolerant report.remark ref.line = true)
    (hdefined : ∃ defined ∈ definedNames report, Text.root defined = ref.root) :
    (findingOn tolerant unit
      (whitelistFor ⟨tolerant, true, loadRequires⟩ report outcomes base ref.line) earlier
      ref).filter (·.isError) = none := by
  obtain ⟨defined, hdefined, hsame⟩ := hdefined
  have hnode {name : String} (hname : name ∈ definedNames report) :
      (resolve (whitelistFor ⟨tolerant, true, loadRequires⟩ report outcomes base ref.line)
        name).node? = some .any :=
    node?_whitelistFor houtcomes rfl hreach hname List.prefix_rfl
  have hroot : ref.root ∈ Keyed.keys
      (whitelistFor ⟨tolerant, true, loadRequires⟩ report outcomes base ref.line) := by
    rw [← hsame]
    exact resolve_rootResolved_iff.mp (rootResolved_of_node? (hnode hdefined))
  rw [findingOn_of_mem_keys hroot]
  cases hwrite : ref.write with
  | false =>
      rw [Bool.and_false, if_neg Bool.false_ne_true, ← Option.toList_eq_nil_iff,
        Option.toList_filter, errors_verdict unit hwrite, if_pos hroot]
  | true =>
      -- An assignment to a root that the unit defines is itself one of the definitions.
      have hglobal : ref.root ∉ localNames report := hsame ▸ root_not_mem_localNames hdefined
      have hassigned := hnode (mem_definedNames_of_write href hwrite hglobal)
      rw [verdict_of_node?_any hassigned, ite_self]
      rfl

/-- **Where the names of a unit are permitted, the errors on its roots are gone and no other
changes**: one reference at a time. -/
theorem isError_findingOn_eq
    (houtcomes : outcomes.map (·.requirement) = report.requirements)
    (href : ref ∈ report.references) :
    (findingOn tolerant unit
        (whitelistFor ⟨tolerant, true, loadRequires⟩ report outcomes base ref.line) earlier
        ref).filter (·.isError)
      = ((findingOn tolerant unit
        (whitelistFor ⟨tolerant, false, loadRequires⟩ report outcomes base ref.line) earlier
        ref).filter (·.isError)).filter fun diagnostic => !excused tolerant report diagnostic := by
  -- The two whitelists of the line differ on the excused references alone.
  by_cases hexcused : definitionsReach tolerant report.remark ref.line = true
      ∧ ∃ defined ∈ definedNames report, Text.root defined = ref.root
  · -- Here one side has no error, and the filter takes away any on the other.
    rw [isError_findingOn_of_defined houtcomes href hexcused.1 hexcused.2, eq_comm,
      Option.filter_eq_none_iff]
    intro diagnostic hfinding
    obtain ⟨hline, hname⟩ := line_name_of_findingOn (Option.filter_eq_some_iff.mp hfinding).1
    rw [(excused_iff hline hname).mpr hexcused]
    exact Bool.false_ne_true
  · have hlookup : Keyed.lookup? ref.root
          (whitelistFor ⟨tolerant, true, loadRequires⟩ report outcomes base ref.line)
        = Keyed.lookup? ref.root
          (whitelistFor ⟨tolerant, false, loadRequires⟩ report outcomes base ref.line) := by
      apply lookup?_whitelistFor
      rw [← Bool.not_eq_true]
      by_cases hreach : definitionsReach tolerant report.remark ref.line = true
      · exact Or.inr fun defined hdefined hsame => hexcused ⟨hreach, defined, hdefined, hsame⟩
      · exact Or.inl hreach
    rw [findingOn_congr hlookup]
    cases hfinding : (findingOn tolerant unit (whitelistFor ⟨tolerant, false, loadRequires⟩ report
        outcomes base ref.line) earlier ref).filter (·.isError) with
    | none => rfl
    | some diagnostic =>
        obtain ⟨hline, hname⟩ := line_name_of_findingOn (Option.filter_eq_some_iff.mp hfinding).1
        have hkept := mt (excused_iff hline hname).mp hexcused
        rw [Bool.not_eq_true] at hkept
        rw [Option.filter_some, hkept]
        rfl

end

/-- **Permitting what a unit defines adds no error.** The errors are those without the permission,
in their order, but for the errors on roots that the unit defines, on lines that its definitions
reach. A unit that passes without the permission passes with it. -/
theorem definedNames_errors_eq (tolerant loadRequires : Bool) (base : Entries) (unit : String)
    (report : ReferenceReport) (resolver? : Option (String → Except String Entries)) :
    let outcomes := resolveRequirements resolver? report
    let without := (evaluate ⟨tolerant, false, loadRequires⟩ base unit report outcomes).1
    let within := (evaluate ⟨tolerant, true, loadRequires⟩ base unit report outcomes).1
    within.errors.Sublist without.errors
      ∧ within.errors
        = without.errors.filter (fun diagnostic => !excused tolerant report diagnostic)
      ∧ (without.success = true → within.success = true) := by
  intro outcomes without within
  have houtcomes : outcomes.map (·.requirement) = report.requirements :=
    requirement_resolveRequirements resolver? report
  have herrors : within.errors
      = without.errors.filter fun diagnostic => !excused tolerant report diagnostic := by
    unfold within without
    rw [errors_evaluate_eq, errors_evaluate_eq, List.filter_filterMap]
    -- What is judged does not depend on the permission.
    apply List.filterMap_congr
    rintro ⟨ref, place⟩ hplace
    have href : ref ∈ report.references :=
      mem_inLineOrder.mp (List.mem_filter.mp (List.fst_mem_of_mem_zipIdx hplace)).1
    exact isError_findingOn_eq houtcomes href
  have hsublist : within.errors.Sublist without.errors := by
    rw [herrors]
    exact List.filter_sublist
  refine ⟨hsublist, herrors, ?_⟩
  intro hsuccess
  rw [UnitResult.success_iff] at hsuccess ⊢
  rw [hsuccess] at hsublist
  exact List.sublist_nil.mp hsublist

/-- **What a unit defines is permitted.** Where its names are permitted, a reference that has one of
the names that it assigns as a component prefix gets no diagnostic on a line that the definitions
reach: all that a check says of this name on this line is that a module of the name could not be
loaded. -/
theorem defined_names_unreported (tolerant loadRequires : Bool) (base : Entries) (unit : String)
    (report : ReferenceReport) (resolver? : Option (String → Except String Entries))
    {written ref : Reference} (hwritten : written ∈ report.references)
    (hwrite : written.write = true) (halias : written.root ∉ report.aliases)
    (hexported : report.remark.exported? ≠ some written.root)
    (hbelow : Text.components written.name <+: Text.components ref.name)
    (hreach : tolerant = true ∨ ¬(report.remark.declared = true ∧ report.remark.strict = true)
      ∨ report.remark.line < ref.line) :
    let outcomes := resolveRequirements resolver? report
    let found := (evaluate ⟨tolerant, true, loadRequires⟩ base unit report outcomes).1.diagnostics
    ∀ diagnostic ∈ found, diagnostic.line = ref.line → diagnostic.name = some ref.name →
      loadRequires = true
        ∧ ∃ outcome ∈ outcomes, requireFailure? unit outcome = some diagnostic := by
  intro outcomes found diagnostic hdiagnostic hline hname
  have houtcomes : outcomes.map (·.requirement) = report.requirements :=
    requirement_resolveRequirements resolver? report
  have hglobal : written.root ∉ localNames report := by
    rw [localNames, List.mem_append, Option.mem_toList]
    exact not_or.mpr ⟨halias, hexported⟩
  have hlines : definitionsReach tolerant report.remark ref.line = true :=
    definitionsReach_iff.mpr hreach
  rcases exists_verdict_of_mem_diagnostics hdiagnostic with hfailure | hverdict
  · exact hfailure
  · obtain ⟨other, -, hotherLine, hotherName, hverdict⟩ := hverdict
    exfalso
    -- The finding is on a reference of the same name and line, which has no verdict either.
    have hsameLine : other.line = ref.line := hotherLine.symm.trans hline
    have hsameName : other.name = ref.name := Option.some.inj (hotherName.symm.trans hname)
    have hnode : (resolve (whitelistFor ⟨tolerant, true, loadRequires⟩ report outcomes base
        other.line) other.name).node? = some .any := by
      rw [hsameLine, hsameName]
      exact node?_whitelistFor houtcomes rfl hlines
        (mem_definedNames_of_write hwritten hwrite hglobal) hbelow
    have hfound := hverdict (root_mem_keys_of_node? hnode)
    rw [verdict_of_node?_any hnode] at hfound
    cases hfound

/-- A unit `module("m", package.seeall)` that reads a member of one of its globals in front of the
assignment to it. -/
def earlyUse : ReferenceReport :=
  { references := [⟨2, "helper.trim", false⟩, ⟨3, "helper", true⟩]
    requirements := []
    remark := { ModuleRemark.absent with declared := true, line := 1, strict := true } }

/-- The early use is an error unless the names of the unit are permitted, and has no finding
then. -/
theorem earlyUse_unreported_where_permitted :
    undefinedGet "u.lua" ⟨2, "helper.trim", false⟩
        ∈ (evaluate ⟨false, false, false⟩ [("print", .symbol "bool")] "u.lua" earlyUse
          []).1.diagnostics
      ∧ ∀ diagnostic ∈ (evaluate ⟨false, true, false⟩ [("print", .symbol "bool")] "u.lua" earlyUse
          []).1.diagnostics,
        ¬(diagnostic.line = 2 ∧ diagnostic.name = some "helper.trim") := by
  have hjudged : ⟨2, "helper.trim", false⟩ ∈ judgedReferences ⟨false, false, false⟩ earlyUse :=
    List.mem_filter.mpr ⟨mem_inLineOrder.mpr List.mem_cons_self, by decide⟩
  have hcomponents : Text.components (Reference.name ⟨3, "helper", true⟩)
      <+: Text.components (Reference.name ⟨2, "helper.trim", false⟩) := by
    decide +kernel
  constructor
  · rw [diagnostics_evaluate rfl]
    exact List.mem_append_right _ (List.mem_filterMap.mpr ⟨_, hjudged, by decide +kernel⟩)
  · rintro diagnostic hdiagnostic ⟨hline, hname⟩
    have hwritten : ⟨3, "helper", true⟩ ∈ earlyUse.references :=
      List.mem_cons_of_mem _ List.mem_cons_self
    have hbehind : earlyUse.remark.line < 2 := by decide
    have hfailure := defined_names_unreported false false [("print", .symbol "bool")] "u.lua"
      earlyUse none hwritten rfl List.not_mem_nil (by decide) hcomponents
      (Or.inr (Or.inr hbehind)) diagnostic hdiagnostic hline hname
    exact Bool.false_ne_true hfailure.1

end LuaGlobals
