import LuaGlobals.Check.Policy
import LuaGlobals.Proofs.Whitelist.Lookup

/-! # The whitelist of a line and the verdict on a reference

What a unit is judged by, said without a walk: the options, the report and the exports of the
required modules fix a whitelist for each line, and the whitelist and a reference fix a verdict.

* `verdict` is the finding on a reference, spelled out.
* `whitelistBefore` and `whitelistBehind` are the whitelists on both sides of the declaration.
* **`whitelistOn`** is the whitelist of a line.
* **`lookup?_withLocals`**: of several requirements under one local the last one wins. -/

namespace LuaGlobals

open Whitelist

/-! ## Verdicts -/

/-- The finding on a reference of a unit by a whitelist, at most one. An assignment may go below a
node that permits everything, and may add a member to a known table. -/
def verdict (unit : String) (whitelist : Entries) (ref : Reference) : Option Diagnostic :=
  let finding (severity : Severity) (problem : String) : Diagnostic :=
    ⟨unit, ref.line, severity, problem ++ " \x60" ++ ref.name ++ "\x60", some ref.name⟩
  match (resolve whitelist ref.name).node?, ref.write with
  | some .any, true => none
  | some _, true => some (finding .error "redefining global")
  | some _, false => none
  | none, true =>
    if ref.root ∈ Keyed.keys whitelist then none else some (finding .error "undefined set")
  | none, false =>
    if ref.root ∈ Keyed.keys whitelist then some (finding .warning "unknown field")
    else some (finding .error "undefined get")

/-- The finding on a requirement whose module has no exports. -/
def requireFailure? (unit : String) (outcome : RequirementOutcome) : Option Diagnostic :=
  let name := outcome.requirement.moduleName
  match outcome.surface with
  | .ok _ => none
  | .error reason =>
    some ⟨unit, outcome.requirement.line, .warning,
      "cannot resolve module" ++ " \x60" ++ name ++ "\x60" ++ ": " ++ reason, some name⟩

/-- The root of a name is resolved exactly when the whitelist has it as a key. -/
theorem rootResolved_eq (whitelist : Entries) (ref : Reference) :
    (resolve whitelist ref.name).rootResolved = decide (ref.root ∈ Keyed.keys whitelist) := by
  rw [Bool.eq_iff_iff, resolve_rootResolved_iff, decide_eq_true_iff]
  exact Iff.rfl

/-- A problem with a marked name, written in one piece. -/
theorem append_marked (problem name : String) :
    problem ++ " " ++ marked name = problem ++ " \x60" ++ name ++ "\x60" := by
  have hmark : " " ++ "\x60" = " \x60" := rfl
  rw [marked, ← hmark]
  simp only [String.append_assoc]

/-- The message on an assignment to a name of the whitelist. -/
theorem message_redefinition (ref : Reference) :
    Finding.redefinition.message ref = "redefining global" ++ " \x60" ++ ref.name ++ "\x60" := by
  rw [← append_marked]
  rfl

/-- The message on a name with an unknown root. -/
theorem message_undefined (ref : Reference) :
    Finding.undefined.message ref
      = (if ref.write then "undefined set" else "undefined get")
        ++ " \x60" ++ ref.name ++ "\x60" := by
  rw [← append_marked]
  unfold Finding.message
  cases ref.write <;> rfl

/-- The message on a member that a known table does not have. -/
theorem message_unknownField (ref : Reference) :
    Finding.unknownField.message ref = "unknown field" ++ " \x60" ++ ref.name ++ "\x60" := by
  rw [← append_marked]
  rfl

/-- The policy reports the verdict. -/
theorem judge_eq_verdict (unit : String) (whitelist : Entries) (ref : Reference) :
    (judge (resolve whitelist ref.name) ref).map (·.diagnostic unit ref)
      = verdict unit whitelist ref := by
  unfold judge verdict
  rw [rootResolved_eq]
  cases (resolve whitelist ref.name).node? with
  | none =>
      by_cases hroot : ref.root ∈ Keyed.keys whitelist <;> cases hwrite : ref.write <;>
        simp [hroot, Finding.diagnostic, Finding.severity, message_undefined,
          message_unknownField, hwrite]
  | some node =>
      cases hwrite : ref.write with
      | false => simp
      | true =>
          cases node <;>
            simp [Node.isAny, Finding.diagnostic, Finding.severity, message_redefinition]

/-- A member that a known table lacks is a warning. -/
example : verdict "u.lua" [("string", .table [])] ⟨1, "string.trim", false⟩
    = some ⟨"u.lua", 1, .warning, "unknown field \x60string.trim\x60", some "string.trim"⟩ := by
  decide +kernel

/-- The entry of its root decides how the lookup of a reference begins. -/
theorem Reference.resolve_eq (whitelist : Entries) (ref : Reference) :
    ∃ rest, Text.components ref.name = ref.root :: rest ∧
      resolve whitelist ref.name =
        ((Keyed.lookup? ref.root whitelist).map fun child =>
          resolveFrom child true rest).getD ⟨none, false⟩ :=
  Whitelist.resolve_eq whitelist ref.name

/-- The entry of a root that permits everything has no finding. -/
theorem verdict_of_lookup?_any {unit : String} {whitelist : Entries} {ref : Reference}
    (h : Keyed.lookup? ref.root whitelist = some .any) : verdict unit whitelist ref = none := by
  obtain ⟨rest, -, hresolve⟩ := ref.resolve_eq whitelist
  have hnode : (resolve whitelist ref.name).node? = some .any := by
    rw [hresolve, h]
    cases rest <;> rfl
  unfold verdict
  rw [hnode]
  cases ref.write <;> rfl

/-- A requirement is reported exactly when it is unresolved. -/
theorem unresolved_eq (options : ScopingOptions) (unit : String)
    (outcomes : List RequirementOutcome) :
    (unresolved options outcomes).map (fun (requirement, reason) =>
        requireWarning unit requirement reason)
      = if options.loadRequires then outcomes.filterMap (requireFailure? unit) else [] := by
  unfold unresolved
  split
  · rw [List.map_filterMap]
    congr 1
    funext outcome
    unfold requireFailure?
    cases outcome.surface with
    | ok surface => rfl
    | error reason =>
        have hproblem : "cannot resolve module " = "cannot resolve module" ++ " " := rfl
        simp only [requireWarning, hproblem, append_marked, Option.map_some]
  · rfl

/-! ## Errors -/

/-- The finding on a read whose root is not known. -/
def undefinedGet (unit : String) (ref : Reference) : Diagnostic :=
  ⟨unit, ref.line, .error, "undefined get" ++ " \x60" ++ ref.name ++ "\x60", some ref.name⟩

/-- A read is an error exactly when its root is not known. -/
theorem errors_verdict (unit : String) {whitelist : Entries} {ref : Reference}
    (hread : ref.write = false) :
    (verdict unit whitelist ref).toList.filter (·.isError)
      = if ref.root ∈ Keyed.keys whitelist then [] else [undefinedGet unit ref] := by
  unfold verdict
  rw [hread]
  by_cases hroot : ref.root ∈ Keyed.keys whitelist
  · cases (resolve whitelist ref.name).node? with
    | none => simp [hroot, Diagnostic.isError]
    | some node => cases node <;> simp [hroot]
  · have hresolve : (resolve whitelist ref.name).node? = none := by
      rw [resolve_eq_of_not_mem hroot]
    simp [hresolve, hroot, Diagnostic.isError, undefinedGet]

/-- Problems that are told apart stay so in messages on one name. -/
theorem problem_eq_of_message_eq {problem other name : String}
    (h : problem ++ " \x60" ++ name ++ "\x60" = other ++ " \x60" ++ name ++ "\x60") :
    problem = other := by
  simpa [String.append_left_inj] using h

/-- A verdict says that a read has an unknown root only of a reference to such a name. -/
theorem root_not_mem_of_verdict_eq {unit : String} {whitelist : Entries} {ref other : Reference}
    (h : verdict unit whitelist ref = some (undefinedGet unit other)) :
    ref.name = other.name ∧ ref.line = other.line ∧ ref.root ∉ Keyed.keys whitelist := by
  have hset : "undefined set" ≠ "undefined get" := by decide
  have hredefinition : "redefining global" ≠ "undefined get" := by decide
  unfold verdict undefinedGet at h
  by_cases hroot : ref.root ∈ Keyed.keys whitelist
  · exfalso
    split at h
    · exact Option.some_ne_none _ h.symm
    · simp only [Option.some.injEq, Diagnostic.mk.injEq] at h
      obtain ⟨-, -, -, hmessage, hname⟩ := h
      rw [hname] at hmessage
      exact hredefinition (problem_eq_of_message_eq hmessage)
    · exact Option.some_ne_none _ h.symm
    · rw [if_pos hroot] at h
      exact Option.some_ne_none _ h.symm
    · simp [hroot] at h
  · have hresolve : (resolve whitelist ref.name).node? = none := by
      rw [resolve_eq_of_not_mem hroot]
    rw [hresolve] at h
    cases hwrite : ref.write with
    | true =>
        exfalso
        simp only [hwrite, if_neg hroot, Option.some.injEq, Diagnostic.mk.injEq] at h
        obtain ⟨-, -, -, hmessage, hname⟩ := h
        rw [hname] at hmessage
        exact hset (problem_eq_of_message_eq hmessage)
    | false =>
        simp only [hwrite, if_neg hroot, Option.some.injEq, Diagnostic.mk.injEq] at h
        obtain ⟨-, hline, -, -, hname⟩ := h
        exact ⟨hname, hline, hroot⟩

/-- A failed requirement is no error. -/
theorem errors_requireFailure? (unit : String) (outcomes : List RequirementOutcome) :
    (outcomes.filterMap (requireFailure? unit)).filter (·.isError) = [] := by
  rw [List.filter_eq_nil_iff]
  intro diagnostic hmem
  obtain ⟨outcome, -, houtcome⟩ := List.mem_filterMap.mp hmem
  unfold requireFailure? at houtcome
  cases hsurface : outcome.surface with
  | ok surface => simp [hsurface] at houtcome
  | error reason =>
      simp only [hsurface, Option.some.injEq] at houtcome
      rw [← houtcome]
      exact Bool.false_ne_true

/-- A unit succeeds exactly when it has no errors. -/
theorem UnitResult.success_iff (result : UnitResult) :
    result.success = true ↔ result.errors = [] := by
  rw [success, errors, List.all_eq_true, List.filter_eq_nil_iff]
  simp

/-! ## The whitelist of a line -/

/-- The entry that a resolved requirement gives to the local that receives the module. -/
def RequirementOutcome.binding? (outcome : RequirementOutcome) : Option (String × Node) :=
  match outcome.surface, outcome.requirement.receiver with
  | .ok surface, some name => if name = "" then none else some (name, .table surface)
  | _, _ => none

section

variable (options : ScopingOptions) (report : ReferenceReport) (outcomes : List RequirementOutcome)

/-- Entries with the locals of a unit over them: the exports of the required modules under their
aliases, if they are loaded, and the exports of the unit under the local that it returns. -/
def withLocals (entries : Entries) : Entries :=
  let aliased := if options.loadRequires then
      Keyed.putAll entries (outcomes.filterMap (·.binding?))
    else entries
  match report.remark.exported? with
  | some name => Keyed.put name (.table ((exportSurface report).getD [])) aliased
  | none => aliased

/-- Entries with the names over them that a unit defines. -/
def withDefined (entries : Entries) : Entries :=
  Keyed.putAll entries (writtenBindings (definedNames report) entries)

/-- Whether the names that a unit defines are permitted from its first line. -/
def permitsEarly : Bool :=
  options.globalsWithinModule
    && (options.tolerant || !(report.remark.declared && report.remark.strict))

/-- The whitelist up to the line on which a unit declares itself a module. -/
def whitelistBefore (base : Entries) : Entries :=
  let located := withLocals options report outcomes base
  if permitsEarly options report then withDefined report located else located

/-- The whitelist behind that line. A bare declaration starts from an environment of its own, and
one that keeps the globals in sight adds the names of the unit if these are permitted. -/
def whitelistBehind (base : Entries) : Entries :=
  if report.remark.strict then
    let before := whitelistBefore options report outcomes base
    if options.globalsWithinModule then withDefined report before else before
  else withLocals options report outcomes (writtenBindings (definedNames report) [])

/-- **The whitelist of a line.** -/
def whitelistOn (base : Entries) (line : Int) : Entries :=
  if report.remark.declared && report.remark.line < line then
    whitelistBehind options report outcomes base
  else whitelistBefore options report outcomes base

/-- What a name stands for among the locals of a unit: the table that the unit returns, or the
exports of the last module that was resolved under the name. -/
def localNode? (name : String) : Option Node :=
  if report.remark.exported? = some name then some (.table ((exportSurface report).getD []))
  else if options.loadRequires then
    outcomes.reverse.findSome? fun outcome =>
      (outcome.binding?.filter (·.1 = name)).map (·.2)
  else none

end

variable {options : ScopingOptions} {report : ReferenceReport} {outcomes : List RequirementOutcome}

/-- The bindings of locals are those of the resolved requirements, then the returned table. -/
theorem localBindings_eq :
    localBindings options report outcomes
      = (if options.loadRequires then outcomes.filterMap (·.binding?) else [])
        ++ report.remark.exported?.toList.map fun name =>
          (name, Node.table ((exportSurface report).getD [])) := by
  have hbinding (outcome : RequirementOutcome) :
      outcome.binding? = (match outcome.surface, outcome.requirement.receiver.filter (· != "") with
        | .ok surface, some name => some (name, Node.table surface)
        | _, _ => none) := by
    obtain ⟨⟨moduleName, line, receiver⟩, surface⟩ := outcome
    cases surface with
    | error reason => rfl
    | ok surface =>
        cases receiver with
        | none => rfl
        | some name =>
            by_cases h : name = "" <;> simp [RequirementOutcome.binding?, Option.filter, h]
  simp only [hbinding]
  unfold localBindings
  cases report.remark.exported? <;> rfl

/-- The bindings of locals, put one after the other, are laid over the entries. -/
theorem putAll_localBindings (entries : Entries) :
    Keyed.putAll entries (localBindings options report outcomes)
      = withLocals options report outcomes entries := by
  rw [localBindings_eq]
  unfold withLocals
  cases report.remark.exported? with
  | none => cases options.loadRequires <;> simp [Keyed.putAll]
  | some name => cases options.loadRequires <;> simp [Keyed.putAll, List.foldl_append]

/-- **The returned table has the members that the unit assigns to it** and no others. -/
theorem lookup?_exportSurface {table : String} (hreturned : report.remark.exported? = some table)
    (member : String) :
    Keyed.lookup? member ((exportSurface report).getD [])
      = if member ∈ assignedMembers report.references table then some .any else none := by
  unfold exportSurface
  rw [hreturned, Option.getD_some, Keyed.lookup?_putAll, ← List.map_reverse,
    Keyed.lookup?_map_const, Keyed.lookup?, Option.or_none]
  simp only [List.mem_reverse]

/-- The first of the bindings of some outcomes under a name. -/
theorem lookup?_filterMap_binding? (outcomes : List RequirementOutcome) (name : String) :
    Keyed.lookup? name (outcomes.filterMap (·.binding?))
      = outcomes.findSome? fun outcome => (outcome.binding?.filter (·.1 = name)).map (·.2) := by
  induction outcomes with
  | nil => rfl
  | cons outcome rest ih =>
      rw [List.findSome?_cons, List.filterMap_cons]
      cases hbinding : outcome.binding? with
      | none => exact ih
      | some binding =>
          by_cases hname : binding.1 = name
          · simp [Keyed.lookup?, Option.filter, hname]
          · simp [Keyed.lookup?, Option.filter, hname, ih]

/-- **A local hides the entries below it**, and of several requirements that it receives the last
resolved one gives its exports. -/
theorem lookup?_withLocals (entries : Entries) (name : String) :
    Keyed.lookup? name (withLocals options report outcomes entries)
      = (localNode? options report outcomes name).or (Keyed.lookup? name entries) := by
  have haliased : Keyed.lookup? name (if options.loadRequires then
        Keyed.putAll entries (outcomes.filterMap (·.binding?)) else entries)
      = (if options.loadRequires then outcomes.reverse.findSome? fun outcome =>
          (outcome.binding?.filter (·.1 = name)).map (·.2) else none).or
        (Keyed.lookup? name entries) := by
    split
    · rw [Keyed.lookup?_putAll, ← List.filterMap_reverse, lookup?_filterMap_binding?]
    · rfl
  unfold withLocals localNode?
  cases hexported : report.remark.exported? with
  | none => simpa using haliased
  | some returned =>
      by_cases hname : returned = name
      · simp [hname]
      · have hreturned : ¬some returned = some name := fun h => hname (Option.some.inj h)
        rw [if_neg hreturned, ← haliased]
        exact Keyed.lookup?_put_of_ne (Ne.symm hname) _ _

/-- A key of the entries with the locals of a unit over them is a local or a key of the entries. -/
theorem mem_keys_withLocals {entries : Entries} {key : String} :
    key ∈ Keyed.keys (withLocals options report outcomes entries)
      ↔ (localNode? options report outcomes key).isSome ∨ key ∈ Keyed.keys entries := by
  rw [← Keyed.lookup?_isSome_iff, ← Keyed.lookup?_isSome_iff, lookup?_withLocals]
  cases localNode? options report outcomes key <;> simp

/-- A key of the entries with the names over them that a unit defines is the root of such a name or
a key of the entries. -/
theorem mem_keys_withDefined {entries : Entries} {key : String} :
    key ∈ Keyed.keys (withDefined report entries)
      ↔ key ∈ Keyed.keys entries ∨ ∃ name ∈ definedNames report, Text.root name = key := by
  rw [withDefined, Keyed.mem_keys_putAll, mem_keys_writtenBindings]

/-- A name is known before the declaration when a local or the base whitelist has it, or the unit
defines its root and may do so early. -/
theorem mem_keys_whitelistBefore {base : Entries} {key : String} :
    key ∈ Keyed.keys (whitelistBefore options report outcomes base)
      ↔ key ∈ Keyed.keys (withLocals options report outcomes base)
        ∨ permitsEarly options report = true
          ∧ ∃ name ∈ definedNames report, Text.root name = key := by
  unfold whitelistBefore
  cases permitsEarly options report with
  | false => simp
  | true => simp [mem_keys_withDefined]

/-- The whitelist at the start of a unit is the one before its declaration. -/
theorem entries_setup (base : Entries) :
    (setup options base report outcomes).entries = whitelistBefore options report outcomes base := by
  have hearly : (options.globalsWithinModule && !bindsLate options report.remark)
      = permitsEarly options report := by
    unfold bindsLate permitsEarly
    cases options.tolerant <;> cases report.remark.declared <;> cases report.remark.strict <;> simp
  unfold setup whitelistBefore
  rw [hearly]
  cases permitsEarly options report with
  | false => simp [putAll_localBindings]
  | true => simp [bindDefined, withDefined, putAll_localBindings]

/-- At its declaration a unit passes from one whitelist to the other. -/
theorem entries_crossDeclaration {base : Entries} {working : ScopedWhitelist}
    (htolerant : options.tolerant = false) (hdeclared : report.remark.declared = true)
    (hworking : working.entries = whitelistBefore options report outcomes base) :
    (crossDeclaration options report outcomes working).entries
      = whitelistBehind options report outcomes base := by
  unfold crossDeclaration whitelistBehind ModuleRemark.isOpen bindsLate
  rw [htolerant, hdeclared]
  cases report.remark.strict with
  | false => simp [putAll_localBindings]
  | true =>
      cases options.globalsWithinModule with
      | false => simpa using hworking
      | true => simp [bindDefined, withDefined, hworking]

end LuaGlobals
