import LuaGlobals.Proofs.Check.Soundness
import LuaGlobals.Proofs.Policy.RequiredExports

/-! # What the assignment to a member permits

A unit that is permitted the names that it defines may assign a member of a known table, and its
references to other members are judged as they were. References give the keys in dotted names, so
the path that is permitted is one of components, not of keys.

* `bearsOn` tells which keys an assignment permits beside its own.
* **`AddsAssignment.isSome_node?_iff`**: what a member leads to with one more assignment.
* `findings_of_skipped_read` and `mem_diagnostics_of_unknown_root`: what is found on reads that no
  whitelist decides.
* **`member_write_unnoticed_iff`**: the reads on which the assignment to a member changes nothing. -/

namespace LuaGlobals

open Whitelist

/-! ## Keys below one table -/

/-- **Whether the assignment of one member bears on a read of another.** Below the local that a unit
returns, all members with one first component are permitted together. Elsewhere a member is permitted
with those whose components go on behind its own or stop short of them, and the member under the
empty key is the whole table. -/
def bearsOn (report : ReferenceReport) (owner key other : String) : Prop :=
  if Text.root owner ∈ localNames report then
    report.remark.exported? = some (Text.root owner)
      ∧ ('.' ∉ owner.toList → Text.root key = Text.root other)
  else
    ('.' ∉ owner.toList ∧ key = "") ∨ Text.components key <+: Text.components other
      ∨ Text.components other <+: Text.components key

instance (report : ReferenceReport) (owner key other : String) :
    Decidable (bearsOn report owner key other) := by
  unfold bearsOn
  infer_instance

/-- Keys without dots have nothing to do with each other. -/
theorem not_bearsOn_of_plain {report : ReferenceReport} {owner key other : String}
    (howner : '.' ∉ owner.toList) (hkey : '.' ∉ key.toList) (hother : '.' ∉ other.toList)
    (hempty : key ≠ "") (hne : key ≠ other) : ¬bearsOn report owner key other := by
  have hsingle {name : String} (hplain : '.' ∉ name.toList) : Text.components name = [name] := by
    rw [Text.components, Text.splitDots_of_not_mem hplain, List.map_singleton,
      String.ofList_toList]
  unfold bearsOn
  split
  case isTrue =>
      rw [Text.root_of_not_mem hkey, Text.root_of_not_mem hother]
      exact fun hbears => hne (hbears.2 howner)
  case isFalse =>
      rw [hsingle hkey, hsingle hother]
      simp [hempty, hne, Ne.symm hne]

/-- The path of a written name has its components, but for a dot that nothing follows. -/
theorem writtenPath_eq (name : String) :
    writtenPath name
      = if Text.afterDot name.toList = [] then [Text.root name] else Text.components name := by
  unfold writtenPath Text.memberPath
  dsimp only
  split
  case isTrue => rfl
  case isFalse hrest =>
      have hdot : '.' ∈ name.toList :=
        Classical.byContradiction fun hnone => hrest (Text.afterDot_of_not_mem hnone)
      obtain ⟨before, after, hname, hbefore⟩ := List.eq_append_cons_of_mem hdot
      rw [Text.components, Text.root, hname, Text.splitDots_append hbefore,
        Text.beforeDot_append hbefore, Text.afterDot_append hbefore, List.map_cons]

/-- Only the empty key adds nothing to the path of a table. -/
theorem writtenPath_member (owner key : String) :
    writtenPath (Text.member owner key)
      = if '.' ∉ owner.toList ∧ key = "" then Text.components owner
        else Text.components owner ++ Text.components key := by
  have htext : (Text.member owner key).toList = owner.toList ++ '.' :: key.toList := by
    simp [Text.member]
  rw [writtenPath_eq, htext, Text.components_member, Text.root_member]
  -- Behind a dotted owner there is always something, so only a plain one loses the empty key.
  by_cases hdot : '.' ∈ owner.toList
  · obtain ⟨before, after, howner, hbefore⟩ := List.eq_append_cons_of_mem hdot
    have hrest : Text.afterDot (owner.toList ++ '.' :: key.toList) ≠ [] := by
      rw [howner, List.append_assoc, List.cons_append, Text.afterDot_append hbefore]
      simp
    rw [if_neg hrest, if_neg fun hwhole => hwhole.1 hdot]
  · have hwhole : Text.components owner = [owner] := by
      rw [Text.components, Text.splitDots_of_not_mem hdot, List.map_singleton,
        String.ofList_toList]
    rw [Text.afterDot_append hdot, Text.root_of_not_mem hdot, hwhole]
    simp only [String.toList_eq_nil_iff, hdot, not_false_eq_true, true_and]

/-- Of the paths of two members one starts with the other when their keys are related. -/
theorem writtenPath_member_related_iff (owner key other : String) :
    (writtenPath (Text.member owner key) <+: Text.components (Text.member owner other)
        ∨ Text.components (Text.member owner other) <+: writtenPath (Text.member owner key))
      ↔ ('.' ∉ owner.toList ∧ key = "") ∨ Text.components key <+: Text.components other
        ∨ Text.components other <+: Text.components key := by
  rw [writtenPath_member, Text.components_member]
  split
  case isTrue hwhole => exact iff_of_true (Or.inl (List.prefix_append _ _)) (Or.inl hwhole)
  case isFalse hpart =>
      rw [List.prefix_append_right_inj, List.prefix_append_right_inj, or_iff_right hpart]

/-- The first component of a member below the root of its table. -/
theorem getElem?_components_member (owner key : String) :
    (Text.components (Text.member owner key))[1]?
      = if '.' ∈ owner.toList then (Text.components owner)[1]? else some (Text.root key) := by
  rw [Text.components_member]
  obtain ⟨rest, hrest⟩ := Text.components_eq_cons key
  split
  case isTrue hdot =>
      obtain ⟨before, after, howner, hbefore⟩ := List.eq_append_cons_of_mem hdot
      obtain ⟨pieces, hpieces⟩ := Text.splitDots_eq_cons after
      rw [Text.components, howner, Text.splitDots_append hbefore, hpieces]
      rfl
  case isFalse hdot =>
      rw [Text.components, Text.splitDots_of_not_mem hdot, hrest]
      rfl

/-- A member has a component below its root. -/
theorem components_member_eq_cons (owner key : String) :
    ∃ first rest, Text.components (Text.member owner key) = Text.root owner :: first :: rest := by
  obtain ⟨inner, howner⟩ := Text.components_eq_cons owner
  obtain ⟨rest, hkey⟩ := Text.components_eq_cons key
  rw [Text.components_member, howner, hkey]
  cases inner with
  | nil => exact ⟨_, _, rfl⟩
  | cons second inner => exact ⟨_, _, rfl⟩

/-- A table has the first component of each of its members. -/
theorem memberBelow?_member (owner key : String) :
    memberBelow? (Text.root owner) (Text.member owner key)
      = (Text.components (Text.member owner key))[1]? := by
  have hdotted : Text.member owner key ≠ Text.root (Text.member owner key) := by
    intro hroot
    obtain ⟨first, rest, hcomponents⟩ := components_member_eq_cons owner key
    have hsingle := hcomponents.symm.trans (Text.components_of_eq_root hroot)
    simp at hsingle
  obtain ⟨after, htext, hcomponents⟩ := Text.exists_toList_eq_of_ne_root hdotted
  obtain ⟨pieces, hpieces⟩ := Text.splitDots_eq_cons after
  rw [hcomponents, hpieces, ← Text.root_member owner key, memberBelow?_eq htext]
  rfl

/-- **Members with one first component below the root.** The members of a nested table share it, and
those of a table without dots when their keys do. -/
theorem memberBelow?_member_eq_iff (owner key other : String) :
    memberBelow? (Text.root owner) (Text.member owner key)
        = (Text.components (Text.member owner other))[1]?
      ↔ ('.' ∉ owner.toList → Text.root key = Text.root other) := by
  rw [memberBelow?_member, getElem?_components_member, getElem?_components_member]
  by_cases hdot : '.' ∈ owner.toList <;> simp [hdot]

/-! ## The whitelist with one more assignment -/

/-- **One report has an assignment that another one lacks**, and is the same but for that. -/
structure AddsAssignment (without report : ReferenceReport) (written : Reference) : Prop where
  /-- The reference assigns its name. -/
  write : written.write = true
  /-- It stands somewhere among the others. -/
  references : ∃ before after, without.references = before ++ after
    ∧ report.references = before ++ written :: after
  /-- The requirements are the same. -/
  requirements : report.requirements = without.requirements
  /-- The remark is the same. -/
  remark : report.remark = without.remark

section

variable {options : ScopingOptions} {report without : ReferenceReport}
  {outcomes : List RequirementOutcome} {base : Entries} {written ref : Reference} {line : Int}
  {name owner key other : String} {unit : String}

namespace AddsAssignment

/-- Both reports have the same aliases. -/
theorem aliases (h : AddsAssignment without report written) :
    report.aliases = without.aliases := by
  rw [ReferenceReport.aliases, ReferenceReport.aliases, h.requirements]

/-- Both reports have the same locals. -/
theorem localNames (h : AddsAssignment without report written) :
    localNames report = LuaGlobals.localNames without := by
  rw [LuaGlobals.localNames, LuaGlobals.localNames, h.aliases, h.remark]

/-- The references are the assignment and the others. -/
theorem mem_references (h : AddsAssignment without report written) :
    ref ∈ report.references ↔ ref = written ∨ ref ∈ without.references := by
  obtain ⟨before, after, hwithout, hreferences⟩ := h.references
  rw [hwithout, hreferences]
  simp [or_left_comm]

/-- The assignment defines one more name, unless that is below a local. -/
theorem mem_definedNames (h : AddsAssignment without report written)
    (hglobal : written.root ∉ LuaGlobals.localNames without) :
    name ∈ definedNames report ↔ name = written.name ∨ name ∈ definedNames without := by
  have hassigned : (∃ ref ∈ report.references, ref.write = true ∧ ref.name = name)
      ↔ name = written.name ∨ ∃ ref ∈ without.references, ref.write = true ∧ ref.name = name := by
    simp only [h.mem_references, or_and_right, exists_or, exists_eq_left, h.write, true_and]
    rw [eq_comm]
  rw [LuaGlobals.mem_definedNames, LuaGlobals.mem_definedNames, hassigned, h.localNames, h.remark,
    or_assoc, or_and_right, and_iff_left_of_imp]
  rintro rfl
  exact hglobal

/-- The assignment gives a table one more member, if it is to one. -/
theorem mem_assignedMembers (h : AddsAssignment without report written) {table first : String} :
    first ∈ assignedMembers report.references table
      ↔ memberBelow? table written.name = some first
        ∨ first ∈ assignedMembers without.references table := by
  obtain ⟨before, after, hwithout, hreferences⟩ := h.references
  rw [hwithout, hreferences]
  simp [assignedMembers, or_and_right, exists_or, h.write, or_left_comm]

end AddsAssignment

/-- A unit that declares nothing is judged by one whitelist, in which it defines its names. -/
theorem whitelistFor_of_undeclared (hpermitted : options.globalsWithinModule = true)
    (hdeclared : report.remark.declared = false) :
    whitelistFor options report outcomes base line
      = withDefined report (withLocals options report outcomes base) := by
  have hearly : permitsEarly options report = true := by
    simp [permitsEarly, hpermitted, hdeclared]
  rw [whitelistFor_eq, hdeclared, Bool.false_and, Bool.and_false, if_neg Bool.false_ne_true,
    whitelistBefore, if_pos hearly]

/-- The entry of a local is that of what it stands for, or the one that the base whitelist has. -/
theorem lookup?_whitelistFor_of_local (hpermitted : options.globalsWithinModule = true)
    (hdeclared : report.remark.declared = false) (hlocal : name ∈ localNames report) :
    Keyed.lookup? name (whitelistFor options report outcomes base line)
      = (localNode? options report outcomes name).or (Keyed.lookup? name base) := by
  have hroot : ∀ defined ∈ definedNames report, Text.root defined ≠ name :=
    fun _ hdefined hsame => root_not_mem_localNames hdefined (hsame ▸ hlocal)
  rw [whitelistFor_of_undeclared hpermitted hdeclared, lookup?_withDefined hroot,
    lookup?_withLocals]

/-- **What is no local is known from the base whitelist or by the names of the unit**, and leads
somewhere below them. -/
theorem whitelistFor_of_global (hpermitted : options.globalsWithinModule = true)
    (hdeclared : report.remark.declared = false)
    (houtcomes : outcomes.map (·.requirement) = report.requirements)
    (hglobal : Text.root name ∉ localNames report) :
    (Text.root name ∈ Keyed.keys (whitelistFor options report outcomes base line)
        ↔ Text.root name ∈ Keyed.keys base
          ∨ ∃ defined ∈ definedNames report, Text.root defined = Text.root name)
      ∧ ((resolve (whitelistFor options report outcomes base line) name).node?.isSome
        ↔ (resolve base name).node?.isSome
          ∨ ∃ defined ∈ definedNames report, writtenPath defined <+: Text.components name
            ∨ Text.components name <+: writtenPath defined) := by
  have hnone : localNode? options report outcomes (Text.root name) = none :=
    localNode?_eq_none houtcomes hglobal
  have hbase : resolve (withLocals options report outcomes base) name = resolve base name :=
    resolve_congr (by rw [lookup?_withLocals, hnone, Option.none_or])
  rw [whitelistFor_of_undeclared hpermitted hdeclared, mem_keys_withDefined, mem_keys_withLocals,
    hnone, isSome_node?_withDefined, hbase]
  simp

/-- Below the local that a unit returns, the members lead somewhere whose first component it
assigns. -/
theorem isSome_node?_of_returned {first : String}
    (hreturned : report.remark.exported? = some (Text.root name))
    (hentry : Keyed.lookup? (Text.root name) base
      = some (.table ((exportSurface report).getD [])))
    (hfirst : (Text.components name)[1]? = some first) :
    (resolve base name).node?.isSome
      ↔ first ∈ assignedMembers report.references (Text.root name) := by
  obtain ⟨rest, hrest⟩ := Text.components_eq_cons name
  rw [hrest] at hfirst
  obtain ⟨members, rfl⟩ : ∃ members, rest = first :: members := by
    cases rest with
    | nil => cases hfirst
    | cons second members => exact ⟨members, by rw [← Option.some.inj hfirst]⟩
  rw [node?_resolve, hrest, nodeAt?, hentry, isSome_nodeAt?_exportSurface hreturned]

/-- **What a global member leads to with one more assignment.** -/
theorem AddsAssignment.isSome_node?_of_global (h : AddsAssignment without report written)
    (hpermitted : options.globalsWithinModule = true)
    (hdeclared : without.remark.declared = false)
    (houtcomes : outcomes.map (·.requirement) = without.requirements)
    (hwritten : written.name = Text.member owner key) (hname : name = Text.member owner other)
    (hglobal : Text.root owner ∉ LuaGlobals.localNames without) :
    (resolve (whitelistFor options report outcomes base line) name).node?.isSome
      ↔ (resolve (whitelistFor options without outcomes base line) name).node?.isSome
        ∨ bearsOn without owner key other := by
  have hwrittenGlobal : written.root ∉ LuaGlobals.localNames without := by
    rwa [Reference.root, hwritten, Text.root_member]
  have hfree : Text.root name ∉ LuaGlobals.localNames without := by
    rwa [hname, Text.root_member]
  have hbears : bearsOn without owner key other
      ↔ writtenPath written.name <+: Text.components name
        ∨ Text.components name <+: writtenPath written.name := by
    rw [bearsOn, if_neg hglobal, hwritten, hname, writtenPath_member_related_iff]
  rw [(whitelistFor_of_global hpermitted (h.remark ▸ hdeclared)
      (h.requirements ▸ houtcomes) (h.localNames ▸ hfree)).2,
    (whitelistFor_of_global hpermitted hdeclared houtcomes hfree).2, hbears]
  simp only [h.mem_definedNames hwrittenGlobal, or_and_right, exists_or, exists_eq_left]
  exact (or_congr_right or_comm).trans or_assoc.symm

/-- **What a member of a local leads to with one more assignment.** -/
theorem AddsAssignment.isSome_node?_of_local (h : AddsAssignment without report written)
    (hpermitted : options.globalsWithinModule = true)
    (hdeclared : without.remark.declared = false)
    (hwritten : written.name = Text.member owner key) (hname : name = Text.member owner other)
    (hlocal : Text.root owner ∈ LuaGlobals.localNames without) :
    (resolve (whitelistFor options report outcomes base line) name).node?.isSome
      ↔ (resolve (whitelistFor options without outcomes base line) name).node?.isSome
        ∨ bearsOn without owner key other := by
  have hroot : Text.root name = Text.root owner := by rw [hname, Text.root_member]
  have hentry : Keyed.lookup? (Text.root name) (whitelistFor options report outcomes base line)
      = (localNode? options report outcomes (Text.root name)).or
        (Keyed.lookup? (Text.root name) base) :=
    lookup?_whitelistFor_of_local hpermitted (h.remark ▸ hdeclared)
      (h.localNames ▸ hroot ▸ hlocal)
  have hentryWithout :
      Keyed.lookup? (Text.root name) (whitelistFor options without outcomes base line)
        = (localNode? options without outcomes (Text.root name)).or
          (Keyed.lookup? (Text.root name) base) :=
    lookup?_whitelistFor_of_local hpermitted hdeclared (hroot ▸ hlocal)
  rw [bearsOn, if_pos hlocal]
  by_cases hreturned : without.remark.exported? = some (Text.root owner)
  · -- The returned table has the members of its own unit alone.
    rw [and_iff_right hreturned, ← memberBelow?_member_eq_iff, ← hname]
    rw [← hroot] at hreturned ⊢
    have hreturnedWith : report.remark.exported? = some (Text.root name) := h.remark ▸ hreturned
    rw [localNode?, if_pos hreturnedWith, Option.some_or] at hentry
    rw [localNode?, if_pos hreturned, Option.some_or] at hentryWithout
    obtain ⟨first, rest, hcomponents⟩ := components_member_eq_cons owner other
    have hfirst : (Text.components name)[1]? = some first := by rw [hname, hcomponents]; rfl
    rw [isSome_node?_of_returned hreturnedWith hentry hfirst,
      isSome_node?_of_returned hreturned hentryWithout hfirst, h.mem_assignedMembers, hwritten,
      hfirst]
    exact or_comm
  · -- A required module has its exports, whatever the unit assigns.
    have hnode : localNode? options report outcomes (Text.root name)
        = localNode? options without outcomes (Text.root name) := by
      rw [localNode?, localNode?, h.remark, hroot, if_neg hreturned, if_neg hreturned]
    have hsame : resolve (whitelistFor options report outcomes base line) name
        = resolve (whitelistFor options without outcomes base line) name :=
      resolve_congr (by rw [hentry, hentryWithout, hnode])
    rw [hsame, or_iff_left fun hbears => hreturned hbears.1]

/-- **What a member leads to with one more assignment**: to something if it did before, or if the
assignment bears on it. -/
theorem AddsAssignment.isSome_node?_iff (h : AddsAssignment without report written)
    (hpermitted : options.globalsWithinModule = true)
    (hdeclared : without.remark.declared = false)
    (houtcomes : outcomes.map (·.requirement) = without.requirements)
    (hwritten : written.name = Text.member owner key) (hname : name = Text.member owner other) :
    (resolve (whitelistFor options report outcomes base line) name).node?.isSome
      ↔ (resolve (whitelistFor options without outcomes base line) name).node?.isSome
        ∨ bearsOn without owner key other := by
  by_cases hlocal : Text.root owner ∈ LuaGlobals.localNames without
  · exact h.isSome_node?_of_local hpermitted hdeclared hwritten hname hlocal
  · exact h.isSome_node?_of_global hpermitted hdeclared houtcomes hwritten hname hlocal

/-- The keys of the base whitelist are known to a unit that declares nothing. -/
theorem mem_keys_whitelistFor_of_base (hpermitted : options.globalsWithinModule = true)
    (hdeclared : report.remark.declared = false) (hbase : name ∈ Keyed.keys base) :
    name ∈ Keyed.keys (whitelistFor options report outcomes base line) := by
  rw [whitelistFor_of_undeclared hpermitted hdeclared, mem_keys_withDefined, mem_keys_withLocals]
  exact Or.inl (Or.inr hbase)

/-- Behind an assignment its root is known, if it is no local or known from the base whitelist. -/
theorem AddsAssignment.root_mem_keys (h : AddsAssignment without report written)
    (hpermitted : options.globalsWithinModule = true)
    (hdeclared : without.remark.declared = false)
    (houtcomes : outcomes.map (·.requirement) = without.requirements)
    (hroot : written.root ∉ LuaGlobals.localNames without ∨ written.root ∈ Keyed.keys base) :
    written.root ∈ Keyed.keys (whitelistFor options report outcomes base line) := by
  rcases hroot with hglobal | hbase
  · refine (whitelistFor_of_global hpermitted (h.remark ▸ hdeclared)
      (h.requirements ▸ houtcomes) (h.localNames ▸ hglobal)).1.mpr (Or.inr ?_)
    exact ⟨written.name, (h.mem_definedNames hglobal).mpr (Or.inl rfl), rfl⟩
  · exact mem_keys_whitelistFor_of_base hpermitted (h.remark ▸ hdeclared) hbase

/-! ## Findings on reads -/

/-- What is found on a reference is found on a judged one with its line and name, or a failed
requirement. -/
theorem exists_judged_of_mem_diagnostics {diagnostic : Diagnostic}
    (h : diagnostic ∈ (evaluate options base unit report outcomes).1.diagnostics) :
    (∃ outcome, requireFailure? unit outcome = some diagnostic)
      ∨ ∃ judged ∈ judgedReferences options report, diagnostic.name = some judged.name := by
  rw [diagnostics_evaluate_eq, List.mem_append] at h
  rcases h with hfailure | hfinding
  · split at hfailure
    case isTrue =>
        obtain ⟨outcome, -, houtcome⟩ := List.mem_filterMap.mp hfailure
        exact Or.inl ⟨outcome, houtcome⟩
    case isFalse => exact absurd hfailure List.not_mem_nil
  · obtain ⟨⟨judged, place⟩, hplace, hfinding⟩ := List.mem_filterMap.mp hfinding
    exact Or.inr ⟨judged, List.fst_mem_of_mem_zipIdx hplace, (line_name_of_findingOn hfinding).2⟩

/-- **Nothing is found on a read below a skipped local.** -/
theorem findings_of_skipped_read (hskipped : ref.root ∈ skippedRoots options report) :
    undefinedGet unit ref ∉ (evaluate options base unit report outcomes).1.diagnostics
      ∧ unknownField unit ref ∉ (evaluate options base unit report outcomes).1.diagnostics := by
  -- Whatever has the name of the read has its root as well.
  have hnone {diagnostic : Diagnostic} (hname : diagnostic.name = some ref.name)
      (hrequired : ∀ outcome, requireFailure? unit outcome ≠ some diagnostic) :
      diagnostic ∉ (evaluate options base unit report outcomes).1.diagnostics := by
    intro hfound
    rcases exists_judged_of_mem_diagnostics hfound with ⟨outcome, houtcome⟩ | hjudged
    · exact hrequired outcome houtcome
    · obtain ⟨judged, hmem, hjudgedName⟩ := hjudged
      have hsame : judged.name = ref.name := Option.some.inj (hjudgedName.symm.trans hname)
      have hroot : judged.root = ref.root := congrArg Text.root hsame
      exact of_decide_eq_true (List.mem_filter.mp hmem).2 (hroot ▸ hskipped)
  exact ⟨hnone rfl fun _ => requireFailure?_ne.1, hnone rfl fun _ => requireFailure?_ne.2⟩

/-- A read whose root the base whitelist has is never found to be undefined. -/
theorem undefinedGet_not_mem_of_base (hpermitted : options.globalsWithinModule = true)
    (hdeclared : report.remark.declared = false) (href : ref ∈ report.references)
    (hread : ref.write = false) (hbase : ref.root ∈ Keyed.keys base) :
    undefinedGet unit ref ∉ (evaluate options base unit report outcomes).1.diagnostics := by
  by_cases hskipped : ref.root ∈ skippedRoots options report
  · exact (findings_of_skipped_read hskipped).1
  · exact (findings_of_judged_read hskipped href hread
      (mem_keys_whitelistFor_of_base hpermitted hdeclared hbase)).1

/-- **A read with an unknown root is found** where no reference assigns the root. -/
theorem mem_diagnostics_of_unknown_root (hjudged : ref.root ∉ skippedRoots options report)
    (href : ref ∈ report.references) (hread : ref.write = false)
    (hroot : ref.root ∉ Keyed.keys (whitelistFor options report outcomes base ref.line))
    (hunassigned : ∀ other ∈ report.references, other.write = true → other.root ≠ ref.root) :
    undefinedGet unit ref ∈ (evaluate options base unit report outcomes).1.diagnostics := by
  have hmem : ref ∈ judgedReferences options report :=
    List.mem_filter.mpr ⟨mem_inLineOrder.mpr href, decide_eq_true hjudged⟩
  obtain ⟨place, hplace⟩ := List.mem_iff_getElem?.mp hmem
  have hundefined {earlier : List Reference} (hnew : assigns earlier ref.root = false) :
      findingAfter unit (whitelistFor options report outcomes base ref.line) earlier ref
        = some (undefinedGet unit ref) := by
    rw [findingAfter, hread, if_neg Bool.false_ne_true, if_neg hroot, hnew,
      if_neg Bool.false_ne_true]
  have hearlier : assigns ((judgedReferences options report).take place) ref.root = false := by
    rw [assigns, List.any_eq_false]
    intro other hother hassigns
    rw [Bool.and_eq_true, beq_iff_eq] at hassigns
    have hmem := (List.mem_filter.mp (List.mem_of_mem_take hother)).1
    exact hunassigned other (mem_inLineOrder.mp hmem) hassigns.1 hassigns.2
  rw [diagnostics_evaluate_eq, List.mem_append, List.mem_filterMap]
  refine Or.inr ⟨(ref, place), List.mem_zipIdx_iff_getElem?.mpr hplace, ?_⟩
  dsimp only
  unfold findingOn
  split
  · exact hundefined hearlier
  · rw [(Learned.start _).verdict_eq unit hread]
    exact hundefined rfl

/-- **The findings on a read below the table of one more assignment** are those without it exactly
when its root was known before, and a name that led nowhere is not related to the assigned one. -/
theorem AddsAssignment.findings_iff (h : AddsAssignment without report written)
    (hpermitted : options.globalsWithinModule = true)
    (hdeclared : without.remark.declared = false)
    (houtcomes : outcomes.map (·.requirement) = without.requirements)
    (hwritten : written.name = Text.member owner key) (hname : ref.name = Text.member owner other)
    (href : ref ∈ without.references) (hread : ref.write = false)
    (hroot : ref.root ∉ LuaGlobals.localNames without ∨ ref.root ∈ Keyed.keys base) :
    let found := (evaluate options base unit report outcomes).1.diagnostics
    let foundWithout := (evaluate options base unit without outcomes).1.diagnostics
    (undefinedGet unit ref ∈ found ↔ undefinedGet unit ref ∈ foundWithout)
        ∧ (unknownField unit ref ∈ found ↔ unknownField unit ref ∈ foundWithout)
      ↔ undefinedGet unit ref ∉ foundWithout
        ∧ (unknownField unit ref ∈ foundWithout → ¬bearsOn without owner key other) := by
  intro found foundWithout
  have hsameRoot : written.root = ref.root := by
    rw [Reference.root, Reference.root, hwritten, hname, Text.root_member, Text.root_member]
  have hmem : ref ∈ report.references := h.mem_references.mpr (Or.inr href)
  have hskip : skippedRoots options report = skippedRoots options without := by
    rw [skippedRoots, skippedRoots, h.aliases]
  by_cases hskipped : ref.root ∈ skippedRoots options without
  · obtain ⟨hundefined, hunknown⟩ : undefinedGet unit ref ∉ found ∧ unknownField unit ref ∉ found :=
      findings_of_skipped_read (hskip ▸ hskipped)
    obtain ⟨hundefined', hunknown'⟩ :
        undefinedGet unit ref ∉ foundWithout ∧ unknownField unit ref ∉ foundWithout :=
      findings_of_skipped_read hskipped
    simp only [hundefined, hunknown, hundefined', hunknown', not_false_eq_true, false_imp_iff,
      and_self]
  -- With the assignment the root is known, so only the name matters.
  have hknown : ref.root ∈ Keyed.keys (whitelistFor options report outcomes base ref.line) :=
    hsameRoot ▸ h.root_mem_keys hpermitted hdeclared houtcomes (hsameRoot ▸ hroot)
  obtain ⟨hundefined, hunknown⟩ : undefinedGet unit ref ∉ found ∧ _ :=
    findings_of_judged_read (hskip ▸ hskipped) hmem hread hknown
  by_cases hbefore : ref.root ∈ Keyed.keys (whitelistFor options without outcomes base ref.line)
  · obtain ⟨hundefined', hunknown'⟩ : undefinedGet unit ref ∉ foundWithout ∧ _ :=
      findings_of_judged_read hskipped href hread hbefore
    have hnode :
        (resolve (whitelistFor options report outcomes base ref.line) ref.name).node?.isSome
          ↔ (resolve (whitelistFor options without outcomes base ref.line) ref.name).node?.isSome
            ∨ bearsOn without owner key other :=
      h.isSome_node?_iff hpermitted hdeclared houtcomes hwritten hname
    rw [hunknown, hunknown', ← Option.not_isSome_iff_eq_none, ← Option.not_isSome_iff_eq_none,
      hnode, not_or, and_iff_left_iff_imp]
    simp only [hundefined, hundefined', not_false_eq_true, true_and]
  · -- Without it the root is no local, and no other assignment has the root.
    have hglobal : ref.root ∉ LuaGlobals.localNames without := by
      refine hroot.resolve_right fun hbase => hbefore ?_
      exact mem_keys_whitelistFor_of_base hpermitted hdeclared hbase
    have hunassigned : ∀ other ∈ without.references, other.write = true →
        other.root ≠ ref.root := by
      intro other hother hwrite hotherRoot
      refine hbefore ((whitelistFor_of_global hpermitted hdeclared houtcomes hglobal).1.mpr ?_)
      exact Or.inr ⟨other.name, mem_definedNames_of_write hother hwrite (hotherRoot ▸ hglobal),
        hotherRoot⟩
    have hundefined' : undefinedGet unit ref ∈ foundWithout :=
      mem_diagnostics_of_unknown_root hskipped href hread hbefore hunassigned
    simp only [hundefined, hundefined', false_iff, not_true_eq_false, false_and]

end

/-! ## Members that are assigned -/

/-- **The assignment to a member permits the members whose keys are related.** In a unit that declares
nothing, the findings on a read of a member are those without the assignment exactly when the root was
known without it as well, and it does not bear on a member that was missing. Different keys that are
neither empty nor dotted never bear on each other. -/
theorem member_write_unnoticed_iff (tolerant loadRequires : Bool) (base : Entries) (unit : String)
    (resolver? : Option (String → Except String Entries)) {report : ReferenceReport}
    {before after : List Reference} {line : Int} {owner key other : String} {ref : Reference}
    (hreferences : report.references
      = before ++ ⟨line, Text.member owner key, true⟩ :: after)
    (href : ref ∈ before ++ after) (hread : ref.write = false)
    (hname : ref.name = Text.member owner other)
    (hdeclared : report.remark.declared = false)
    (hroot : Text.root owner ∉ localNames report ∨ Text.root owner ∈ Keyed.keys base) :
    let diagnostics (report : ReferenceReport) :=
      (evaluate ⟨tolerant, true, loadRequires⟩ base unit report
        (resolveRequirements resolver? report)).1.diagnostics
    let without := { report with references := before ++ after }
    let unnoticed := ∀ finding ∈ [undefinedGet unit ref, unknownField unit ref],
      finding ∈ diagnostics report ↔ finding ∈ diagnostics without
    (unnoticed ↔ undefinedGet unit ref ∉ diagnostics without
        ∧ (unknownField unit ref ∈ diagnostics without → ¬bearsOn report owner key other))
      ∧ (owner ∈ Keyed.keys base → '.' ∉ owner.toList → '.' ∉ key.toList → '.' ∉ other.toList →
        key ≠ "" → key ≠ other → unnoticed) := by
  intro diagnostics without unnoticed
  have hadds : AddsAssignment without report ⟨line, Text.member owner key, true⟩ :=
    ⟨rfl, ⟨before, after, rfl, hreferences⟩, rfl, rfl⟩
  have houtcomes := requirement_resolveRequirements resolver? without
  have hrefRoot : ref.root = Text.root owner := by rw [Reference.root, hname, Text.root_member]
  have hfindings : unnoticed ↔ undefinedGet unit ref ∉ diagnostics without
      ∧ (unknownField unit ref ∈ diagnostics without → ¬bearsOn report owner key other) := by
    have hboth : unnoticed
        ↔ (undefinedGet unit ref ∈ diagnostics report ↔ undefinedGet unit ref ∈ diagnostics without)
          ∧ (unknownField unit ref ∈ diagnostics report
            ↔ unknownField unit ref ∈ diagnostics without) := by
      simp [unnoticed]
    rw [hboth]
    exact hadds.findings_iff rfl hdeclared houtcomes rfl hname href hread (hrefRoot ▸ hroot)
  refine ⟨hfindings, ?_⟩
  intro hbase howner hkey hother hempty hne
  have hrootBase : ref.root ∈ Keyed.keys base := by
    rwa [hrefRoot, Text.root_of_not_mem howner]
  exact hfindings.mpr ⟨undefinedGet_not_mem_of_base rfl hdeclared href hread hrootBase,
    fun _ => not_bearsOn_of_plain howner hkey hother hempty hne⟩

/-- A listing that assigns to the empty key of a library and reads a member that it lacks. -/
def emptyKeyListing : String :=
  "main <u.lua:0,0>
0 params,
1 [1] GETGLOBAL 0 -1 ; string
2 [1] SETTABLE 0 -2 -3 ; \"\" 1
3 [2] GETGLOBAL 0 -1 ; string
4 [2] GETTABLE 0 0 -4 ; \"nope\"
5 [2] RETURN 0 1
"

/-- The one function of that listing. -/
def emptyKeyMain : FunctionListing :=
  { kind := .main
    source := "u.lua"
    lineDefined := 0
    instructions := [
      ⟨1, 1, "GETGLOBAL", some 0, some (-1), none, some "string", none⟩,
      ⟨2, 1, "SETTABLE", some 0, some (-2), some (-3), some "", none⟩,
      ⟨3, 2, "GETGLOBAL", some 0, some (-1), none, some "string", none⟩,
      ⟨4, 2, "GETTABLE", some 0, some 0, some (-4), some "nope", none⟩,
      ⟨5, 2, "RETURN", some 0, some 1, none, none, none⟩]
    scope := ⟨[], []⟩ }

/-- The assignment permits every member of the library, and the warning about the one that it lacks
is gone. -/
theorem emptyKeyListing_permits_all :
    let read : Reference := ⟨2, Text.member "string" "nope", false⟩
    let diagnostics (report : ReferenceReport) :=
      (evaluate ⟨false, true, false⟩ [("string", .table [("format", .any)])] "u.lua" report
        (resolveRequirements none report)).1.diagnostics
    ∃ report, analyzeListing emptyKeyListing = .ok report
      ∧ report.references = [⟨1, Text.member "string" "", true⟩, read]
      ∧ unknownField "u.lua" read ∈ diagnostics { report with references := [read] }
      ∧ unknownField "u.lua" read ∉ diagnostics report := by
  intro read diagnostics
  have hread : readFunctions (.ofText emptyKeyListing) = ([emptyKeyMain], none) := by
    decide +kernel
  have hanalyze : analyzeListing emptyKeyListing
      = .ok (resolveFunctions [emptyKeyMain]).report := by
    rw [analyzeListing, resolveListing, hread]
    rfl
  have hreferences : (resolveFunctions [emptyKeyMain]).report.references
      = [⟨1, Text.member "string" "", true⟩, read] := by decide +kernel
  have hwithout : unknownField "u.lua" read
      ∈ diagnostics { (resolveFunctions [emptyKeyMain]).report with references := [read] } := by
    decide +kernel
  have hsplit : (resolveFunctions [emptyKeyMain]).report.references
      = [] ++ ⟨1, Text.member "string" "", true⟩ :: [read] := hreferences
  have hmem : read ∈ (resolveFunctions [emptyKeyMain]).report.references := by
    rw [hreferences]
    exact List.mem_cons_of_mem _ List.mem_cons_self
  have hbase : read.root ∈ Keyed.keys [("string", Node.table [("format", .any)])] := by
    decide +kernel
  have hexact := (member_write_unnoticed_iff false false [("string", .table [("format", .any)])]
    "u.lua" none hsplit List.mem_cons_self rfl rfl (by decide) (Or.inr (by decide +kernel))).1
  refine ⟨_, hanalyze, hreferences, hwithout, fun hfound => ?_⟩
  -- Were the warning still there, the assignment would go unnoticed.
  refine (hexact.mp ?_).2 hwithout (by decide +kernel)
  intro finding hfinding
  rcases List.mem_pair.mp hfinding with rfl | rfl
  · exact iff_of_false (undefinedGet_not_mem_of_base rfl (by decide) hmem rfl hbase)
      (undefinedGet_not_mem_of_base rfl (by decide) List.mem_cons_self rfl hbase)
  · exact iff_of_true hfound hwithout

end LuaGlobals
