import LuaGlobals.Proofs.Policy.DefinedNames

/-! # Exports of required modules

A check that loads the required modules binds the exports of each to the local that receives it. The
set-up, the definitions of the unit and its declaration are followed here for the entry of such a
local.

* **`lookup?_whitelistFor_of_localNode?`**: what a local stands for, it stands for on every line.
* **`localNode?_eq_exports`**: a local stands for the exports of the one module that it receives,
  unless the unit returns it.
* **`findings_of_judged_read`**: what is found on a read of a known table.
* **`required_exports_readable_iff`**: which exports of a required module a unit cannot read. -/

namespace LuaGlobals

open Whitelist

/-! ## What a local stands for -/

section

variable {options : ScopingOptions} {report : ReferenceReport} {outcomes : List RequirementOutcome}
  {base surface : Entries} {line : Int} {name path : String} {node : Node} {ref : Reference}

/-- **A local stands for the same on every line.** What the unit defines has other roots, and the
environment behind a bare declaration keeps the locals. -/
theorem lookup?_whitelistFor_of_localNode?
    (houtcomes : outcomes.map (·.requirement) = report.requirements)
    (hlocal : localNode? options report outcomes name = some node) :
    Keyed.lookup? name (whitelistFor options report outcomes base line) = some node := by
  have hname : name ∈ localNames report := by
    apply Classical.byContradiction
    intro hglobal
    rw [localNode?_eq_none houtcomes hglobal] at hlocal
    cases hlocal
  have hroot : ∀ defined ∈ definedNames report, Text.root defined ≠ name :=
    fun _ hdefined hsame => root_not_mem_localNames hdefined (hsame ▸ hname)
  have hlocals (entries : Entries) :
      Keyed.lookup? name (withLocals options report outcomes entries) = some node := by
    rw [lookup?_withLocals, hlocal, Option.some_or]
  have hbefore :
      Keyed.lookup? name (whitelistBefore options report outcomes base) = some node := by
    unfold whitelistBefore
    split
    · exact (lookup?_withDefined hroot).trans (hlocals base)
    · exact hlocals base
  have hbehind :
      Keyed.lookup? name (whitelistBehind options report outcomes base) = some node := by
    unfold whitelistBehind
    dsimp only
    split
    · split
      · exact (lookup?_withDefined hroot).trans hbefore
      · exact hbefore
    · exact hlocals _
  rw [whitelistFor_eq]
  split
  · exact hbehind
  · exact hbefore

/-- **A local stands for the exports of the one module that it receives**, unless the unit returns
it. -/
theorem localNode?_eq_exports {resolver : String → Except String Entries}
    {requirement : Requirement} (hload : options.loadRequires = true)
    (hkept : report.remark.exported? ≠ some name) (hnamed : name ≠ "")
    (hrequired : requirement ∈ report.requirements) (hreceiver : requirement.receiver = some name)
    (hsurface : resolver requirement.moduleName = .ok surface)
    (honly : ∀ other ∈ report.requirements, other.receiver = some name →
      other.moduleName = requirement.moduleName) :
    localNode? options report (resolveRequirements (some resolver) report) name
      = some (.table surface) := by
  -- Whatever is bound to the local are these exports, and the requirement binds them.
  have hbound : ∀ other ∈ report.requirements,
      ((RequirementOutcome.binding? ⟨other, resolver other.moduleName⟩).filter
          (·.1 = name)).map (·.2)
        = if other.receiver = some name then some (.table surface) else none := by
    intro other hother
    by_cases hreceived : other.receiver = some name
    · rw [if_pos hreceived, honly other hother hreceived, hsurface, RequirementOutcome.binding?,
        hreceived]
      simp [hnamed]
    · rw [if_neg hreceived, Option.map_eq_none_iff, Option.filter_eq_none_iff]
      rintro ⟨received, bound⟩ hbinding hsame
      rw [decide_eq_true_eq] at hsame
      subst hsame
      exact hreceived (receiver_of_binding? hbinding).1
  unfold localNode?
  rw [if_neg hkept, if_pos hload]
  -- The last outcome with the receiver decides, and there is one.
  cases hfound : (resolveRequirements (some resolver) report).reverse.findSome? fun outcome =>
      (outcome.binding?.filter (·.1 = name)).map (·.2) with
  | none =>
      have hmem : ⟨requirement, resolver requirement.moduleName⟩
          ∈ resolveRequirements (some resolver) report :=
        List.mem_map.mpr ⟨requirement, hrequired, rfl⟩
      have hnone := List.findSome?_eq_none_iff.mp hfound _ (List.mem_reverse.mpr hmem)
      rw [hbound requirement hrequired, if_pos hreceiver] at hnone
      cases hnone
  | some node =>
      obtain ⟨outcome, hmem, hnode⟩ := List.exists_of_findSome?_eq_some hfound
      obtain ⟨other, hother, rfl⟩ := List.mem_map.mp (List.mem_reverse.mp hmem)
      have hexports := (hbound other hother).symm.trans hnode
      split at hexports
      · exact hexports.symm
      · cases hexports

/-! ## Reads of members of a local -/

/-- A name below a table leads to what the rest of it leads to among the members. -/
theorem node?_of_lookup?_table {entries : Entries}
    (hname : Text.components ref.name = name :: Text.components path)
    (htable : Keyed.lookup? name entries = some (.table surface)) :
    (resolve entries ref.name).node? = (resolve surface path).node? := by
  rw [node?_resolve, node?_resolve, hname, nodeAt?, htable]

/-- A path leads somewhere in the table that a unit returns when the unit assigns its first component
there. -/
theorem isSome_nodeAt?_exportSurface {first : String} {rest : List String}
    (hreturned : report.remark.exported? = some name) :
    (nodeAt? (some (.table ((exportSurface report).getD []))) (first :: rest)).isSome
      ↔ first ∈ assignedMembers report.references name := by
  rw [nodeAt?, lookup?_exportSurface hreturned]
  by_cases hassigned : first ∈ assignedMembers report.references name
  · simp [hassigned]
  · simp [hassigned]

/-- A name leads somewhere in the table that a unit returns when the unit assigns its root there. -/
theorem isSome_node?_exportSurface (hreturned : report.remark.exported? = some name) :
    (resolve ((exportSurface report).getD []) path).node?.isSome
      ↔ Text.root path ∈ assignedMembers report.references name := by
  obtain ⟨rest, hrest⟩ := Text.components_eq_cons path
  rw [node?_resolve, hrest, isSome_nodeAt?_exportSurface hreturned]

/-- The verdict on a read with a known root. -/
theorem verdict_of_read {unit : String} {whitelist : Entries} (hread : ref.write = false)
    (hroot : ref.root ∈ Keyed.keys whitelist) :
    verdict unit whitelist ref
      = if (resolve whitelist ref.name).node?.isNone then some (unknownField unit ref)
        else none := by
  rw [(Learned.start whitelist).verdict_eq unit hread, findingAfter, hread,
    if_neg Bool.false_ne_true, if_pos hroot]

/-- A verdict says that a table lacks a name only of a reference to a name that leads nowhere. -/
theorem node?_of_verdict_eq_unknownField {unit : String} {whitelist : Entries} {other : Reference}
    (h : verdict unit whitelist other = some (unknownField unit ref)) :
    (resolve whitelist other.name).node? = none := by
  cases hnode : (resolve whitelist other.name).node? with
  | none => rfl
  | some node =>
      unfold verdict unknownField at h
      rw [hnode] at h
      cases node <;> cases hwrite : other.write <;> simp [hwrite] at h

/-- A failed requirement is told apart from what is found on a read. -/
theorem requireFailure?_ne {unit : String} {outcome : RequirementOutcome} :
    requireFailure? unit outcome ≠ some (undefinedGet unit ref)
      ∧ requireFailure? unit outcome ≠ some (unknownField unit ref) := by
  unfold requireFailure? undefinedGet unknownField
  cases outcome.surface with
  | ok surface => simp
  | error reason =>
      -- The one has another severity, the other another first character.
      refine ⟨by simp, ?_⟩
      intro h
      simp only [Option.some.injEq, Diagnostic.mk.injEq] at h
      have hfirst := congrArg (·.toList.head?) h.2.2.2.1
      simp at hfirst

/-- **The findings on a judged read of a known table**: that the table lacks the name, exactly when
it does, and never that the root is not known. -/
theorem findings_of_judged_read {unit : String} (hjudged : ref.root ∉ skippedRoots options report)
    (href : ref ∈ report.references) (hread : ref.write = false)
    (hroot : ref.root ∈ Keyed.keys (whitelistFor options report outcomes base ref.line)) :
    let found := (evaluate options base unit report outcomes).1.diagnostics
    undefinedGet unit ref ∉ found
      ∧ (unknownField unit ref ∈ found ↔
        (resolve (whitelistFor options report outcomes base ref.line) ref.name).node? = none) := by
  intro found
  -- A finding with the line and the name of the read is a verdict by the same whitelist.
  have hverdict {diagnostic : Diagnostic} (hfound : diagnostic ∈ found)
      (hrequired : ∀ outcome, requireFailure? unit outcome ≠ some diagnostic)
      (hline : diagnostic.line = ref.line) (hname : diagnostic.name = some ref.name) :
      ∃ other : Reference, other.name = ref.name
        ∧ verdict unit (whitelistFor options report outcomes base ref.line) other
          = some diagnostic := by
    rcases exists_verdict_of_mem_diagnostics hfound with hfailure | hjudged
    · obtain ⟨-, outcome, -, houtcome⟩ := hfailure
      exact absurd houtcome (hrequired outcome)
    · obtain ⟨other, -, hotherLine, hotherName, hverdict⟩ := hjudged
      have hsameName : other.name = ref.name := Option.some.inj (hotherName.symm.trans hname)
      have hsameRoot : other.root = ref.root := congrArg Text.root hsameName
      rw [hsameRoot, ← hotherLine, hline] at hverdict
      exact ⟨other, hsameName, hverdict hroot⟩
  refine ⟨?_, ?_, ?_⟩
  · intro hundefined
    obtain ⟨other, hname, hother⟩ :=
      hverdict hundefined (fun _ => requireFailure?_ne.1) rfl rfl
    have hunknown := (root_not_mem_of_verdict_eq hother).2.2
    rw [Reference.root, hname] at hunknown
    exact hunknown hroot
  · intro hlacking
    obtain ⟨other, hname, hother⟩ :=
      hverdict hlacking (fun _ => requireFailure?_ne.2) rfl rfl
    rw [← hname]
    exact node?_of_verdict_eq_unknownField hother
  · intro hnode
    have hmem : ref ∈ judgedReferences options report :=
      List.mem_filter.mpr ⟨mem_inLineOrder.mpr href, decide_eq_true hjudged⟩
    apply mem_diagnostics_of_verdict hmem hread hroot
    rw [verdict_of_read hread hroot, hnode]
    rfl

/-- Where the required modules are loaded, every read of a known table is judged. -/
theorem findings_of_known_read {unit : String} (hload : options.loadRequires = true)
    (href : ref ∈ report.references) (hread : ref.write = false)
    (hroot : ref.root ∈ Keyed.keys (whitelistFor options report outcomes base ref.line)) :
    let found := (evaluate options base unit report outcomes).1.diagnostics
    undefinedGet unit ref ∉ found
      ∧ (unknownField unit ref ∈ found ↔
        (resolve (whitelistFor options report outcomes base ref.line) ref.name).node? = none) := by
  refine findings_of_judged_read ?_ href hread hroot
  rw [skippedRoots, if_pos hload]
  exact List.not_mem_nil

end

/-! ## What a unit can read -/

/-- **Exports of a required module can be read under the local that receives it**, on every line and
with every idiom, but for one: in a unit that returns the local, a read below a member that the unit
does not assign itself has a finding, for the local stands for the members that the unit assigns. -/
theorem required_exports_readable_iff (tolerant globalsWithinModule : Bool) (base : Entries)
    (unit : String) (report : ReferenceReport) (resolver : String → Except String Entries)
    {requirement : Requirement} {name path : String} {surface : Entries} {ref : Reference}
    (hrequired : requirement ∈ report.requirements) (hreceiver : requirement.receiver = some name)
    (hnamed : name ≠ "") (hsurface : resolver requirement.moduleName = .ok surface)
    (honly : ∀ other ∈ report.requirements, other.receiver = some name →
      other.moduleName = requirement.moduleName)
    (href : ref ∈ report.references) (hread : ref.write = false)
    (hname : Text.components ref.name = name :: Text.components path)
    (hexported : (resolve surface path).node?.isSome) :
    let found := (evaluate ⟨tolerant, globalsWithinModule, true⟩ base unit report
      (resolveRequirements (some resolver) report)).1.diagnostics
    undefinedGet unit ref ∉ found
      ∧ (unknownField unit ref ∈ found
        ↔ report.remark.exported? = some name
          ∧ Text.root path ∉ assignedMembers report.references name) := by
  intro found
  have houtcomes := requirement_resolveRequirements (some resolver) report
  have hroot : ref.root = name := by
    obtain ⟨rest, hrest⟩ := Text.components_eq_cons ref.name
    exact (List.cons.inj (hrest.symm.trans hname)).1
  -- Either table that the local may stand for decides what the read leads to.
  have hfindings {members : Entries}
      (hlocal : localNode? ⟨tolerant, globalsWithinModule, true⟩ report
        (resolveRequirements (some resolver) report) name = some (.table members)) :
      undefinedGet unit ref ∉ found
        ∧ (unknownField unit ref ∈ found ↔ ¬(resolve members path).node?.isSome) := by
    have htable : Keyed.lookup? name (whitelistFor ⟨tolerant, globalsWithinModule, true⟩ report
          (resolveRequirements (some resolver) report) base ref.line) = some (.table members) :=
      lookup?_whitelistFor_of_localNode? houtcomes hlocal
    have hknown := (Keyed.lookup?_isSome_iff _ _).mp (Option.isSome_of_eq_some htable)
    rw [← hroot] at hknown
    obtain ⟨hdefined, hlacking⟩ := findings_of_known_read rfl href hread hknown
    refine ⟨hdefined, hlacking.trans ?_⟩
    rw [node?_of_lookup?_table hname htable, Option.not_isSome_iff_eq_none]
  by_cases hreturned : report.remark.exported? = some name
  · -- The returned table is bound last, over the exports of the module.
    have hlocal : localNode? ⟨tolerant, globalsWithinModule, true⟩ report
        (resolveRequirements (some resolver) report) name
          = some (.table ((exportSurface report).getD [])) := if_pos hreturned
    obtain ⟨hdefined, hlacking⟩ := hfindings hlocal
    refine ⟨hdefined, hlacking.trans ?_⟩
    rw [isSome_node?_exportSurface hreturned, and_iff_right hreturned]
  · obtain ⟨hdefined, hlacking⟩ := hfindings (localNode?_eq_exports rfl hreturned hnamed hrequired
      hreceiver hsurface honly)
    refine ⟨hdefined, hlacking.trans ?_⟩
    simp [hexported, hreturned]

/-- A unit that returns the local that receives a module, behind a read of a member of it. -/
def returnedModule : ReferenceReport :=
  { references := [⟨2, "t.x", false⟩]
    requirements := [⟨"mod", 1, some "t"⟩]
    remark := { ModuleRemark.absent with simpleModule := some "t" } }

/-- The member is exported by the required module, and the unit that returns the local is told that
it does not exist. -/
theorem returnedModule_hides_export :
    let resolver (moduleName : String) : Except String Entries :=
      if moduleName = "mod" then .ok [("x", .any)] else .error "module not found"
    unknownField "u.lua" ⟨2, "t.x", false⟩
      ∈ (evaluate ⟨false, false, true⟩ [("print", .any)] "u.lua" returnedModule
        (resolveRequirements (some resolver) returnedModule)).1.diagnostics := by
  intro resolver
  have honly : ∀ other ∈ returnedModule.requirements, other.receiver = some "t" →
      other.moduleName = "mod" := by decide
  have hname : Text.components (Reference.name ⟨2, "t.x", false⟩) = "t" :: Text.components "x" := by
    decide +kernel
  have hexported : (resolve [("x", .any)] "x").node?.isSome := by decide +kernel
  have hunassigned : Text.root "x" ∉ assignedMembers returnedModule.references "t" := by
    decide +kernel
  exact (required_exports_readable_iff false false [("print", .any)] "u.lua" returnedModule resolver
    (List.mem_singleton_self (⟨"mod", 1, some "t"⟩ : Requirement)) rfl (by decide) rfl honly
    List.mem_cons_self rfl hname hexported).2.mpr ⟨by decide, hunassigned⟩

end LuaGlobals
