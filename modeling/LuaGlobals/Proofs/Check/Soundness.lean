import LuaGlobals.Check.Engine
import LuaGlobals.Proofs.Policy.Walk
import LuaGlobals.Proofs.Reference.GlobalRead

/-! # What an accepted unit reads

With the default options and without a declaration, a unit that is accepted reads globals whose
roots the whitelist has, or whose roots are names of its own locals: references are told from locals
by their names alone, so a global passes under the name of a local.

* **`root_mem_of_success`**: what an accepted unit refers to.
* `sufficientWhitelist` has the roots that a unit needs, and no names of its locals.
* **`accepted_reads_iff`**: for which units acceptance means that all globals they read are in the
  whitelist. -/

namespace LuaGlobals

open Whitelist

/-! ## Verdicts by the entry of the root -/

/-- A reference with an unknown root is an error. -/
theorem exists_error_of_root_not_mem (unit : String) {whitelist : Entries} {ref : Reference}
    (h : ref.root ∉ Keyed.keys whitelist) :
    ∃ diagnostic, verdict unit whitelist ref = some diagnostic ∧ diagnostic.isError = true := by
  have hnode : (resolve whitelist ref.name).node? = none := by
    rw [resolve_eq_of_not_mem h]
  unfold verdict
  rw [hnode]
  cases ref.write with
  | false => exact ⟨_, if_neg h, rfl⟩
  | true => exact ⟨_, if_neg h, rfl⟩

/-! ## The default check -/

/-- The options of a configuration in which nothing is set. -/
abbrev defaultScoping : ScopingOptions :=
  AnalysisConfig.standard.scoping

section

variable {report : ReferenceReport} {base : Entries} {unit : String}

/-- A unit is accepted when no reference has an error, except for those to aliases, which are not
judged. -/
theorem success_default_iff (hdeclared : report.remark.declared = false) :
    (evaluate defaultScoping base unit report []).1.success = true ↔
      ∀ ref ∈ report.references, ref.root ∉ report.aliases →
        ∀ diagnostic ∈ verdict unit (withLocals defaultScoping report [] base) ref,
          diagnostic.isError = false := by
  have hwhitelist (line : Int) : whitelistOn defaultScoping report [] base line
      = withLocals defaultScoping report [] base := by
    rw [whitelistOn, hdeclared]
    rfl
  rw [UnitResult.success_iff, errors_evaluate rfl, List.filter_eq_nil_iff]
  simp only [hwhitelist, List.mem_filterMap, judgedReferences, List.mem_filter, mem_inLineOrder]
  constructor
  · intro h ref href hjudged diagnostic hverdict
    exact Bool.not_eq_true _ ▸ h diagnostic ⟨ref, ⟨href, decide_eq_true hjudged⟩, hverdict⟩
  · rintro h diagnostic ⟨ref, ⟨href, hjudged⟩, hverdict⟩
    rw [h ref href (of_decide_eq_true hjudged) diagnostic hverdict]
    exact Bool.false_ne_true

/-- No judged reference of an accepted unit has an error. -/
theorem not_isError_of_success (hdeclared : report.remark.declared = false)
    (hsuccess : (evaluate defaultScoping base unit report []).1.success = true)
    {ref : Reference} (href : ref ∈ report.references) (halias : ref.root ∉ report.aliases)
    {diagnostic : Diagnostic}
    (hverdict : verdict unit (withLocals defaultScoping report [] base) ref = some diagnostic) :
    ¬diagnostic.isError = true := by
  rw [(success_default_iff hdeclared).mp hsuccess ref href halias diagnostic hverdict]
  exact Bool.false_ne_true

/-- By default the only local with an entry is the one that the unit returns. -/
theorem lookup?_withLocals_default (name : String) :
    Keyed.lookup? name (withLocals defaultScoping report [] base) =
      if report.remark.exported? = some name then some (.table ((exportSurface report).getD []))
      else Keyed.lookup? name base := by
  rw [lookup?_withLocals]
  unfold localNode?
  split <;> rfl

/-- **What an accepted unit refers to** has a root that the whitelist has, or one that is the name of
a local. -/
theorem root_mem_of_success (hdeclared : report.remark.declared = false)
    (hsuccess : (evaluate defaultScoping base unit report []).1.success = true)
    {ref : Reference} (href : ref ∈ report.references) :
    ref.root ∈ Keyed.keys base ∨ ref.root ∈ localNames report := by
  by_cases halias : ref.root ∈ report.aliases
  · exact Or.inr (List.mem_append_left _ halias)
  · have hknown : ref.root ∈ Keyed.keys (withLocals defaultScoping report [] base) := by
      apply Classical.byContradiction
      intro hunknown
      obtain ⟨diagnostic, hverdict, herror⟩ := exists_error_of_root_not_mem unit hunknown
      exact not_isError_of_success hdeclared hsuccess href halias hverdict herror
    rw [← Keyed.lookup?_isSome_iff, lookup?_withLocals_default] at hknown
    split at hknown
    case isTrue hreturned =>
        refine Or.inr (List.mem_append_right _ ?_)
        rw [hreturned]
        exact List.mem_cons_self
    case isFalse => exact Or.inl ((Keyed.lookup?_isSome_iff _ _).mp hknown)

/-! ## The returned table -/

/-- Whether a unit assigns a global under the name of the local that it returns. -/
def redefinesReturned (report : ReferenceReport) : Prop :=
  ∃ ref ∈ report.references, ref.root ∉ report.aliases ∧ ref.write = true
    ∧ ref.name = ref.root ∧ report.remark.exported? = some ref.root

instance (report : ReferenceReport) : Decidable (redefinesReturned report) :=
  inferInstanceAs (Decidable (∃ ref ∈ report.references, ref.root ∉ report.aliases
    ∧ ref.write = true ∧ ref.name = ref.root ∧ report.remark.exported? = some ref.root))

/-- The name of the returned table, on its own, finds the table. -/
theorem node?_of_name_eq_root {whitelist members : Entries} {ref : Reference}
    (hname : ref.name = ref.root)
    (h : Keyed.lookup? ref.root whitelist = some (.table members)) :
    (resolve whitelist ref.name).node? = some (.table members) := by
  obtain ⟨rest, hrest, hresolve⟩ := ref.resolve_eq whitelist
  rw [Text.components_of_eq_root hname] at hrest
  obtain rfl : rest = [] := (List.cons.inj hrest).2.symm
  rw [hresolve, h]
  rfl

/-- No whitelist accepts a unit that assigns a global under the name of the local that it
returns. -/
theorem not_success_of_redefinesReturned (hdeclared : report.remark.declared = false)
    (h : redefinesReturned report) :
    ¬(evaluate defaultScoping base unit report []).1.success = true := by
  obtain ⟨ref, href, halias, hwrite, hname, hreturned⟩ := h
  intro hsuccess
  have hlookup : Keyed.lookup? ref.root (withLocals defaultScoping report [] base)
      = some (.table ((exportSurface report).getD [])) := by
    rw [lookup?_withLocals_default, if_pos hreturned]
  have herror : ∃ diagnostic ∈ verdict unit (withLocals defaultScoping report [] base) ref,
      diagnostic.isError = true := by
    unfold verdict
    rw [node?_of_name_eq_root hname hlookup, hwrite]
    exact ⟨_, rfl, rfl⟩
  obtain ⟨diagnostic, hverdict, herror⟩ := herror
  exact not_isError_of_success hdeclared hsuccess href halias hverdict herror

/-- The first component that a name has below its root. -/
theorem memberBelow?_eq {table name : String} {after : List Char}
    (h : name.toList = table.toList ++ '.' :: after) :
    memberBelow? table name = some (String.ofList (Text.beforeDot after)) := by
  have hcut (front : List Char) : front.isPrefixOf? (front ++ after) = some after := by
    induction front with
    | nil => rfl
    | cons c rest ih => rw [List.cons_append, List.isPrefixOf?, if_pos (beq_self_eq_true c), ih]
  have htable : (table ++ ".").toList = table.toList ++ ['.'] := by simp
  have hname : name.toList = (table.toList ++ ['.']) ++ after := by simp [h]
  rw [memberBelow?, htable, hname, hcut]
  rfl

/-- An assignment to a member of the returned table is fine. -/
theorem verdict_of_assigned_member {whitelist : Entries} {ref : Reference}
    (href : ref ∈ report.references) (hwrite : ref.write = true)
    (hreturned : report.remark.exported? = some ref.root) (hname : ref.name ≠ ref.root)
    (h : Keyed.lookup? ref.root whitelist = some (.table ((exportSurface report).getD []))) :
    verdict unit whitelist ref = none := by
  obtain ⟨after, htext, hcomponents⟩ := Text.exists_toList_eq_of_ne_root hname
  obtain ⟨pieces, hpieces⟩ := Text.splitDots_eq_cons after
  obtain ⟨rest, hrest, hresolve⟩ := ref.resolve_eq whitelist
  rw [hcomponents, hpieces, List.map_cons] at hrest
  obtain rfl := (List.cons.inj hrest).2
  have hassigned : String.ofList (Text.beforeDot after)
      ∈ assignedMembers report.references ref.root :=
    List.mem_filterMap.mpr ⟨ref, List.mem_filter.mpr ⟨href, hwrite⟩, memberBelow?_eq htext⟩
  have hmember := lookup?_exportSurface hreturned (String.ofList (Text.beforeDot after))
  rw [if_pos hassigned] at hmember
  have hnode : (resolve whitelist ref.name).node? = some .any := by
    rw [hresolve, h, Option.map_some, Option.getD_some, resolveFrom, hmember]
    cases pieces <;> rfl
  unfold verdict
  rw [hnode, hwrite]

/-! ## A whitelist that is enough -/

/-- The roots of what a unit refers to, except for the names of its locals. -/
def sufficientWhitelist (report : ReferenceReport) : Entries :=
  ((report.references.map (·.root)).filter (· ∉ localNames report)).map (·, .any)

/-- A whitelist that is enough has no names of locals. -/
theorem not_mem_localNames_of_mem_keys {key : String}
    (h : key ∈ Keyed.keys (sufficientWhitelist report)) : key ∉ localNames report := by
  rw [Keyed.keys, sufficientWhitelist, List.map_map] at h
  obtain ⟨root, hroot, rfl⟩ := List.mem_map.mp h
  exact of_decide_eq_true (List.mem_filter.mp hroot).2

/-- A whitelist that is enough permits everything below the roots that the unit needs. -/
theorem lookup?_sufficientWhitelist {ref : Reference} (href : ref ∈ report.references)
    (hfree : ref.root ∉ localNames report) :
    Keyed.lookup? ref.root (sufficientWhitelist report) = some .any := by
  rw [sufficientWhitelist, Keyed.lookup?_map_const, if_pos]
  exact List.mem_filter.mpr ⟨List.mem_map_of_mem href, decide_eq_true hfree⟩

/-- **No name of a local is needed for a unit to be accepted.** -/
theorem success_sufficientWhitelist (hdeclared : report.remark.declared = false)
    (h : ¬redefinesReturned report) :
    (evaluate defaultScoping (sufficientWhitelist report) unit report []).1.success = true := by
  rw [success_default_iff hdeclared]
  intro ref href halias diagnostic hverdict
  have hlookup : Keyed.lookup? ref.root
      (withLocals defaultScoping report [] (sufficientWhitelist report)) = _ :=
    lookup?_withLocals_default ref.root
  by_cases hreturned : report.remark.exported? = some ref.root
  · rw [if_pos hreturned] at hlookup
    cases hwrite : ref.write with
    | true =>
        have hname : ref.name ≠ ref.root := fun hname =>
          h ⟨ref, href, halias, hwrite, hname, hreturned⟩
        rw [verdict_of_assigned_member href hwrite hreturned hname hlookup] at hverdict
        exact absurd hverdict (Option.not_mem_none diagnostic)
    | false =>
        have hroot := (Keyed.lookup?_isSome_iff _ _).mp (Option.isSome_of_eq_some hlookup)
        have herrors : (verdict unit (withLocals defaultScoping report []
            (sufficientWhitelist report)) ref).toList.filter (·.isError) = _ :=
          errors_verdict unit hwrite
        rw [if_pos hroot, List.filter_eq_nil_iff] at herrors
        exact Bool.not_eq_true _ ▸ herrors diagnostic (Option.mem_toList.mpr hverdict)
  · have hfree : ref.root ∉ localNames report := by
      rw [localNames, List.mem_append, not_or, Option.mem_toList]
      exact ⟨halias, hreturned⟩
    rw [if_neg hreturned, lookup?_sufficientWhitelist href hfree] at hlookup
    rw [verdict_of_lookup?_any hlookup] at hverdict
    exact absurd hverdict (Option.not_mem_none diagnostic)

end

/-! ## Whole listings -/

namespace Engine

/-- An engine with the default options and a given whitelist. -/
def byDefault (engine : Engine) (whitelist : Entries) : Engine :=
  { engine with config := { engine.config with scoping := defaultScoping }, whitelist }

/-- Whether a listing is accepted by a whitelist and the default options. -/
def accepts (engine : Engine) (whitelist : Entries) (unit text : String)
    (directory : Option FilePath) : Bool :=
  ((engine.byDefault whitelist).checkListing unit text directory).value.success

variable {engine : Engine} {whitelist : Entries} {unit text : String}
  {directory : Option FilePath} {functions : List FunctionListing}

/-- Only a text that can be read is accepted. -/
theorem read_of_accepts (h : engine.accepts whitelist unit text directory = true) :
    (readFunctions (.ofText text)).2 = none := by
  unfold accepts checkListing checkListingIn analyzeListing resolveListing at h
  rcases hread : readFunctions (.ofText text) with ⟨functions, error?⟩
  cases error? with
  | none => rfl
  | some error =>
      rw [hread] at h
      exact absurd h Bool.false_ne_true

/-- The check of a text that can be read judges what its functions refer to. -/
theorem accepts_eq (engine : Engine) (whitelist : Entries) (unit : String)
    (directory : Option FilePath) (hread : readFunctions (.ofText text) = (functions, none)) :
    engine.accepts whitelist unit text directory
      = (evaluate defaultScoping whitelist unit
          (resolveFunctions functions).report []).1.success := by
  unfold accepts checkListing checkListingIn analyzeListing resolveListing
  rw [hread]
  rfl

/-- The globals that an accepted text reads are in the whitelist or have names of locals. -/
theorem root_mem_of_accepts (hread : readFunctions (.ofText text) = (functions, none))
    (hdeclared : (resolveFunctions functions).report.remark.declared = false)
    (h : engine.accepts whitelist unit text directory = true) {root : String}
    (hroot : root ∈ globalRoots functions) :
    root ∈ Keyed.keys whitelist ∨ root ∈ localNames (resolveFunctions functions).report := by
  rw [engine.accepts_eq whitelist unit directory hread] at h
  obtain ⟨ref, href, rfl⟩ := exists_reference_of_mem_globalRoots hroot
  exact root_mem_of_success hdeclared h href

/-- What would make every whitelist that accepts a text have the globals that it reads. -/
theorem forall_accepts_iff (engine : Engine) (unit : String) (directory : Option FilePath)
    (hread : readFunctions (.ofText text) = (functions, none))
    (hdeclared : (resolveFunctions functions).report.remark.declared = false) :
    (∀ whitelist, engine.accepts whitelist unit text directory = true →
        ∀ root ∈ globalRoots functions, root ∈ Keyed.keys whitelist)
      ↔ (∀ root ∈ globalRoots functions, root ∉ localNames (resolveFunctions functions).report)
        ∨ redefinesReturned (resolveFunctions functions).report := by
  constructor
  · intro hall
    by_cases hredefines : redefinesReturned (resolveFunctions functions).report
    · exact Or.inr hredefines
    · refine Or.inl fun root hroot => ?_
      -- The whitelist that is enough accepts the text, so it has the root, but no local's name.
      have haccepts : engine.accepts (sufficientWhitelist (resolveFunctions functions).report)
          unit text directory = true := by
        rw [engine.accepts_eq _ unit directory hread]
        exact success_sufficientWhitelist hdeclared hredefines
      exact not_mem_localNames_of_mem_keys (hall _ haccepts root hroot)
  · rintro (hclear | hredefines) whitelist haccepts root hroot
    · rcases root_mem_of_accepts hread hdeclared haccepts hroot with hknown | hlocal
      · exact hknown
      · exact absurd hlocal (hclear root hroot)
    · rw [engine.accepts_eq whitelist unit directory hread] at haccepts
      exact absurd haccepts (not_success_of_redefinesReturned hdeclared hredefines)

end Engine

/-- **What an accepted text reads.** Without a declaration, the roots of all globals that an accepted
text reads are in the whitelist or are names of its locals. That they are all in the whitelist,
whichever whitelist accepts the text, holds of a text that can be read exactly when no global that
it reads has the name of a local, or when it assigns a global under the name of the local that it
returns, so that no whitelist accepts it. -/
theorem accepted_reads_iff (engine : Engine) (unit text : String)
    (directory : Option FilePath) :
    let functions := (readFunctions (.ofText text)).1
    let report := (resolveFunctions functions).report
    (∀ whitelist, engine.accepts whitelist unit text directory = true →
        report.remark.declared = false → ∀ root ∈ globalRoots functions,
          root ∈ Keyed.keys whitelist ∨ root ∈ localNames report)
      ∧ ((∀ whitelist, engine.accepts whitelist unit text directory = true →
            report.remark.declared = false → ∀ root ∈ globalRoots functions,
              root ∈ Keyed.keys whitelist)
          ↔ ((readFunctions (.ofText text)).2 = none → report.remark.declared = false →
            (∀ root ∈ globalRoots functions, root ∉ localNames report)
              ∨ redefinesReturned report)) := by
  intro functions report
  have hread (hclean : (readFunctions (.ofText text)).2 = none) :
      readFunctions (.ofText text) = (functions, none) := Prod.ext rfl hclean
  refine ⟨?_, ?_, ?_⟩
  · intro whitelist haccepts hdeclared root hroot
    exact Engine.root_mem_of_accepts (hread (Engine.read_of_accepts haccepts)) hdeclared haccepts
      hroot
  · intro hall hclean hdeclared
    refine (engine.forall_accepts_iff unit directory (hread hclean) hdeclared).mp ?_
    exact fun whitelist haccepts => hall whitelist haccepts hdeclared
  · intro hcondition whitelist haccepts hdeclared
    have hclean := Engine.read_of_accepts haccepts
    exact (engine.forall_accepts_iff unit directory (hread hclean) hdeclared).mpr
      (hcondition hclean hdeclared) whitelist haccepts

/-- A listing with a local that receives a module, and a read of a global of the same name behind
the end of the local. -/
def clashListing : String :=
  "main <u.lua:0,0>
0 params,
1 [1] GETGLOBAL 0 -1 ; require
2 [1] LOADK 1 -2 ; \"x\"
3 [1] CALL 0 2 2
4 [2] GETGLOBAL 0 -3 ; t
locals (1)
0 t 4 4
"

/-- The one function of that listing. -/
def clashMain : FunctionListing :=
  { kind := .main
    source := "u.lua"
    lineDefined := 0
    instructions := [
      ⟨1, 1, "GETGLOBAL", some 0, some (-1), none, some "require", none⟩,
      ⟨2, 1, "LOADK", some 1, some (-2), none, some "x", none⟩,
      ⟨3, 1, "CALL", some 0, some 2, some 2, none, none⟩,
      ⟨4, 2, "GETGLOBAL", some 0, some (-3), none, some "t", none⟩]
    scope := ⟨[⟨0, "t", 3, 4, false⟩], []⟩ }

/-- A clash of names is let through: some whitelist accepts the listing although it lacks a global
that the listing reads. -/
theorem clashListing_accepted_without_global :
    let engine : Engine := ⟨.standard, [], ⟨[], []⟩, fun _ => .notStarted ""⟩
    ∃ whitelist, engine.accepts whitelist "u.lua" clashListing none = true
      ∧ "t" ∈ globalRoots (readFunctions (.ofText clashListing)).1
      ∧ "t" ∉ Keyed.keys whitelist := by
  intro engine
  have hread : readFunctions (.ofText clashListing) = ([clashMain], none) := by decide +kernel
  have hnames : localNames (resolveFunctions [clashMain]).report = ["t"] := by decide
  obtain ⟨hsound, hexact⟩ := accepted_reads_iff engine "u.lua" clashListing none
  simp only [hread] at hsound hexact ⊢
  apply Classical.byContradiction
  intro hnone
  have hall : ∀ whitelist, engine.accepts whitelist "u.lua" clashListing none = true →
      (resolveFunctions [clashMain]).report.remark.declared = false →
        ∀ root ∈ globalRoots [clashMain], root ∈ Keyed.keys whitelist := by
    intro whitelist haccepts hdeclared root hroot
    rcases hsound whitelist haccepts hdeclared root hroot with hknown | hlocal
    · exact hknown
    · rw [hnames, List.mem_singleton] at hlocal
      subst hlocal
      exact Classical.byContradiction fun hmissing =>
        hnone ⟨whitelist, haccepts, hroot, hmissing⟩
  rcases hexact.mp hall trivial (by decide) with hclear | hredefines
  · exact hclear "t" (by decide) (by decide)
  · exact absurd hredefines (by decide)

end LuaGlobals
