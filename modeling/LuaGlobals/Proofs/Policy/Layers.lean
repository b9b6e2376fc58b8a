import LuaGlobals.Proofs.Policy.Finding
import LuaGlobals.Proofs.Whitelist.Merge

/-! # Layers over the base whitelist

A layer may hide members of what lies below it, but never a root. So the reads with an unknown root,
and these alone, can only become fewer with each layer.

* `seesBase` tells on which lines a check looks at the base whitelist at all.
* **`mem_keys_whitelistFor_mergeAll`**: what the layers add to the roots that are known on a line.
* **`layers_undefinedGets_eq`**: the reads of unknown roots are those without the layers, less the
  ones on which a layer has the root. -/

namespace LuaGlobals

open Whitelist

/-! ## Roots on a line -/

/-- Whether a check looks at the base whitelist on a line: behind a bare declaration the unit has an
environment of its own, which a tolerant check takes no notice of. -/
def seesBase (tolerant : Bool) (remark : ModuleRemark) (line : Int) : Bool :=
  tolerant || !(remark.isOpen && remark.line < line)

section

variable {options : ScopingOptions} {report : ReferenceReport} {outcomes : List RequirementOutcome}
  {base : Entries} {layers : List Entries} {key : String}

/-- Before the declaration the layers add their roots. -/
theorem mem_keys_whitelistBefore_mergeAll :
    key ∈ Keyed.keys (whitelistBefore options report outcomes (mergeAll base layers))
      ↔ key ∈ Keyed.keys (whitelistBefore options report outcomes base)
        ∨ ∃ layer ∈ layers, key ∈ Keyed.keys layer := by
  simp only [mem_keys_whitelistBefore, mem_keys_withLocals, mem_keys_mergeAll]
  rw [← or_assoc, or_right_comm]

/-- Behind a declaration the layers add their roots, unless it is a bare one. -/
theorem mem_keys_whitelistBehind_mergeAll :
    key ∈ Keyed.keys (whitelistBehind options report outcomes (mergeAll base layers))
      ↔ key ∈ Keyed.keys (whitelistBehind options report outcomes base)
        ∨ report.remark.strict = true ∧ ∃ layer ∈ layers, key ∈ Keyed.keys layer := by
  unfold whitelistBehind
  cases report.remark.strict with
  | false => simp
  | true =>
      cases options.globalsWithinModule with
      | false => simp [mem_keys_whitelistBefore_mergeAll]
      | true =>
          simp only [if_true, true_and, mem_keys_withDefined, mem_keys_whitelistBefore_mergeAll]
          exact or_right_comm

/-- **The layers add their roots to those that are known on a line**, where the base whitelist is
looked at. -/
theorem mem_keys_whitelistFor_mergeAll {line : Int} :
    key ∈ Keyed.keys (whitelistFor options report outcomes (mergeAll base layers) line)
      ↔ key ∈ Keyed.keys (whitelistFor options report outcomes base line)
        ∨ seesBase options.tolerant report.remark line = true
          ∧ ∃ layer ∈ layers, key ∈ Keyed.keys layer := by
  rw [whitelistFor_eq, whitelistFor_eq, seesBase, ModuleRemark.isOpen]
  by_cases hside : (!options.tolerant && (report.remark.declared && report.remark.line < line))
      = true
  · rw [if_pos hside, if_pos hside, mem_keys_whitelistBehind_mergeAll]
    simp only [Bool.and_eq_true, Bool.not_eq_true'] at hside
    obtain ⟨htolerant, hdeclared, hline⟩ := hside
    simp [htolerant, hdeclared, hline]
  · rw [if_neg hside, if_neg hside, mem_keys_whitelistBefore_mergeAll]
    simp only [Bool.and_eq_true, Bool.not_eq_true'] at hside
    cases htolerant : options.tolerant <;> cases hdeclared : report.remark.declared <;>
      simp_all

end

/-! ## Reads of unknown roots -/

/-- Whether a finding is the error on a read whose root is not known. -/
def Diagnostic.isUndefinedGet (diagnostic : Diagnostic) : Bool :=
  diagnostic.isError && diagnostic.name.any fun name =>
    diagnostic.message == "undefined get" ++ " \x60" ++ name ++ "\x60"

/-- The problem that a message starts with tells the error. -/
theorem isUndefinedGet_mk (unit : String) (line : Int) (severity : Severity)
    (problem name : String) :
    Diagnostic.isUndefinedGet
        ⟨unit, line, severity, problem ++ " \x60" ++ name ++ "\x60", some name⟩
      = (severity == .error && problem == "undefined get") := by
  have hproblem : (problem ++ " \x60" ++ name ++ "\x60"
      == "undefined get" ++ " \x60" ++ name ++ "\x60") = (problem == "undefined get") := by
    rw [Bool.eq_iff_iff, beq_iff_eq, beq_iff_eq]
    exact ⟨problem_eq_of_message_eq, fun h => by rw [h]⟩
  rw [Diagnostic.isUndefinedGet, Option.any_some, hproblem]
  rfl

/-- The error on a read whose root is not known is one. -/
theorem isUndefinedGet_undefinedGet (unit : String) (ref : Reference) :
    (undefinedGet unit ref).isUndefinedGet = true := by
  rw [undefinedGet, isUndefinedGet_mk]
  rfl

section

variable {tolerant : Bool} {unit : String} {whitelist : Entries} {earlier : List Reference}
  {ref : Reference}

/-- The verdict on a reference says so of a read whose root is no key. -/
theorem isUndefinedGet_verdict :
    (verdict unit whitelist ref).filter (·.isUndefinedGet)
      = if ref.write = false ∧ ref.root ∉ Keyed.keys whitelist then some (undefinedGet unit ref)
        else none := by
  have hset : ("undefined set" == "undefined get") = false := by decide
  have hredefinition : ("redefining global" == "undefined get") = false := by decide
  have hfield : ("unknown field" == "undefined get") = false := by decide
  unfold verdict undefinedGet
  by_cases hroot : ref.root ∈ Keyed.keys whitelist
  · rw [if_neg (fun h => h.2 hroot)]
    cases (resolve whitelist ref.name).node? with
    | none => cases ref.write <;> simp [-String.reduceAppend, hroot, isUndefinedGet_mk, hfield]
    | some node =>
        cases node <;> cases ref.write <;>
          simp [-String.reduceAppend, isUndefinedGet_mk, hredefinition]
  · have hnode : (resolve whitelist ref.name).node? = none := by
      rw [resolve_eq_of_not_mem hroot]
    rw [hnode]
    cases ref.write <;> simp [-String.reduceAppend, hroot, isUndefinedGet_mk, hset]

/-- The finding on a reference says so of a read whose root is no key and, in tolerant mode, is not
assigned before it. -/
theorem isUndefinedGet_findingOn :
    (findingOn tolerant unit whitelist earlier ref).filter (·.isUndefinedGet)
      = if (ref.write = false ∧ ¬(tolerant = true ∧ assigns earlier ref.root = true))
            ∧ ref.root ∉ Keyed.keys whitelist then
          some (undefinedGet unit ref)
        else none := by
  cases tolerant with
  | false => simpa [findingOn] using isUndefinedGet_verdict
  | true =>
      by_cases hroot : ref.root ∈ Keyed.keys whitelist
      · -- A known root is judged as outside tolerant mode, where it is no such read.
        rw [findingOn_of_mem_keys hroot]
        cases ref.write <;> simp [isUndefinedGet_verdict, hroot]
      · have hget := isUndefinedGet_undefinedGet unit ref
        unfold findingOn findingAfter
        rw [if_pos rfl, if_neg hroot]
        cases ref.write <;> cases assigns earlier ref.root <;> simp [hroot, hget]

end

/-! ## What layers do to a check -/

/-- Whether a finding is about a root that one of the layers has, on a line on which the base
whitelist is looked at. -/
def suppliedBy (layers : List Entries) (tolerant : Bool) (remark : ModuleRemark)
    (diagnostic : Diagnostic) : Bool :=
  seesBase tolerant remark diagnostic.line
    && diagnostic.name.any fun name =>
      layers.any fun layer => Keyed.hasKey (Text.root name) layer

section

variable {options : ScopingOptions} {report : ReferenceReport} {outcomes : List RequirementOutcome}
  {base : Entries} {layers : List Entries} {unit : String} {ref : Reference}

/-- A read is supplied by the layers when one of them has its root and its line looks at the base
whitelist. -/
theorem suppliedBy_undefinedGet (layers : List Entries) (tolerant : Bool) (remark : ModuleRemark)
    (unit : String) (ref : Reference) :
    suppliedBy layers tolerant remark (undefinedGet unit ref) = true ↔
      seesBase tolerant remark ref.line = true
        ∧ ∃ layer ∈ layers, ref.root ∈ Keyed.keys layer := by
  simp only [suppliedBy, undefinedGet, Reference.root, Keyed.hasKey, Bool.and_eq_true,
    Option.any_some, List.any_eq_true, Keyed.lookup?_isSome_iff]

/-- **Layers take away the reads of unknown roots that they have**, one reference at a time. -/
theorem isUndefinedGet_findingOn_mergeAll (earlier : List Reference) :
    (findingOn options.tolerant unit
        (whitelistFor options report outcomes (mergeAll base layers) ref.line) earlier
        ref).filter (·.isUndefinedGet)
      = ((findingOn options.tolerant unit
        (whitelistFor options report outcomes base ref.line) earlier
        ref).filter (·.isUndefinedGet)).filter
          fun diagnostic => !suppliedBy layers options.tolerant report.remark diagnostic := by
  have hsupplied := suppliedBy_undefinedGet layers options.tolerant report.remark unit ref
  simp only [isUndefinedGet_findingOn, mem_keys_whitelistFor_mergeAll, not_or, ← hsupplied,
    ← and_assoc]
  split
  case isTrue hunknown =>
      rw [if_pos hunknown.1, Option.filter_some, if_pos (by simpa using hunknown.2)]
  case isFalse hknown =>
      split
      case isTrue hbase =>
          have hlayer := Classical.not_not.mp fun hnone => hknown ⟨hbase, hnone⟩
          rw [Option.filter_some, hlayer]
          rfl
      case isFalse => rfl

/-- The reads of unknown roots that a check finds are those of its judged references. -/
theorem undefinedGets_evaluate_eq (whitelist : Entries) :
    (evaluate options whitelist unit report outcomes).1.diagnostics.filter (·.isUndefinedGet)
      = (judgedReferences options report).zipIdx.filterMap fun (ref, place) =>
        (findingOn options.tolerant unit
          (whitelistFor options report outcomes whitelist ref.line)
          ((judgedReferences options report).take place) ref).filter (·.isUndefinedGet) := by
  have hfailures : (outcomes.filterMap (requireFailure? unit)).filter (·.isUndefinedGet) = [] := by
    have herrors := errors_requireFailure? unit outcomes
    rw [List.filter_eq_nil_iff] at herrors ⊢
    intro diagnostic hmem hget
    exact herrors diagnostic hmem ((Bool.and_eq_true _ _).mp hget).1
  rw [diagnostics_evaluate_eq, List.filter_append, List.filter_filterMap]
  cases options.loadRequires <;> simp [hfailures]

end

/-- **Layers never make a read undefined.** With layers over the base whitelist, the errors on reads
of unknown roots are those without the layers, in their order, but for the ones on roots that a
layer has, on lines on which the base whitelist is looked at. This is so with every option and for
whatever the required modules export. -/
theorem layers_undefinedGets_eq (options : ScopingOptions) (base : Entries)
    (layers : List Entries) (unit : String) (report : ReferenceReport)
    (outcomes : List RequirementOutcome) :
    let without := (evaluate options base unit report outcomes).1.diagnostics
    let layered := (evaluate options (mergeAll base layers) unit report outcomes).1.diagnostics
    (∀ ref, undefinedGet unit ref ∈ layered → undefinedGet unit ref ∈ without)
      ∧ (layered.filter (·.isUndefinedGet)).Sublist (without.filter (·.isUndefinedGet))
      ∧ layered.filter (·.isUndefinedGet)
        = (without.filter (·.isUndefinedGet)).filter fun diagnostic =>
          !suppliedBy layers options.tolerant report.remark diagnostic := by
  intro without layered
  have hgets : layered.filter (·.isUndefinedGet)
      = (without.filter (·.isUndefinedGet)).filter fun diagnostic =>
        !suppliedBy layers options.tolerant report.remark diagnostic := by
    unfold layered without
    rw [undefinedGets_evaluate_eq, undefinedGets_evaluate_eq, List.filter_filterMap]
    -- Which references are judged, and in which order, does not depend on the whitelist.
    apply List.filterMap_congr
    rintro ⟨ref, place⟩ -
    exact isUndefinedGet_findingOn_mergeAll _
  have hsublist : (layered.filter (·.isUndefinedGet)).Sublist
      (without.filter (·.isUndefinedGet)) := by
    rw [hgets]
    exact List.filter_sublist
  refine ⟨?_, hsublist, hgets⟩
  intro ref hlayered
  have hget : (undefinedGet unit ref).isUndefinedGet = true := isUndefinedGet_undefinedGet unit ref
  exact (List.mem_filter.mp (hsublist.subset (List.mem_filter.mpr ⟨hlayered, hget⟩))).1

/-- A member may be lost: a layer in which a root is no table leaves nothing below it. -/
example :
    verdict "u.lua" (mergeAll [("string", .table [("format", .any)])] [[("string", .symbol "")]])
        ⟨1, "string.format", false⟩
      = some (unknownField "u.lua" ⟨1, "string.format", false⟩) := by
  decide +kernel

end LuaGlobals
