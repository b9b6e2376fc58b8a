import LuaGlobals.Module.Loader
import LuaGlobals.Proofs.Policy.DefinedNames
import LuaGlobals.Proofs.Whitelist.Written
import LuaGlobals.Reference.Resolver

/-! # What a declared module exports

The surface of a unit that declares itself a module is made of the names that it assigns from the
declaration on. A member of a local that holds a required module counts as such a name, although the
unit defines no global by it.

* `writesFromDeclaration` are the assignments that count.
* **`mem_keys_declaredSurface`** tells the roots of the surface, and `resolve_declaredSurface` that
  each assigned name is exported.
* `exists_definedName_of_mem_keys`: a root that is no local is that of a name the policy takes for
  defined.
* **`exportSurface_keys`** puts the account together, with the exact condition under which no root is
  one of a local alone. -/

namespace LuaGlobals

open Whitelist

/-- The assignments of a unit from its declaration on. -/
def writesFromDeclaration (report : ReferenceReport) : List Reference :=
  report.references.filter fun ref => ref.write && report.remark.line ≤ ref.line

/-- The bindings of the names that a unit defines from its declaration on. -/
def declaredSurface (report : ReferenceReport) : Entries :=
  writtenBindings (declaredNames report) []

section

variable {report : ReferenceReport} {key name : String}

/-- A declared module that returns no local exports what it defines from the declaration on. -/
theorem exportSurface_of_declared (hdeclared : report.remark.declared = true)
    (hreturned : report.remark.exported? = none) :
    exportSurface report = some (declaredSurface report) := by
  rw [exportSurface, hreturned]
  exact if_pos hdeclared

/-- A name that counts is assigned from the declaration on, or is the root of the declared name. -/
theorem mem_declaredNames :
    name ∈ declaredNames report ↔
      (∃ written ∈ writesFromDeclaration report, written.name = name)
        ∨ report.remark.declaredRoot? = some name := by
  rw [declaredNames, List.mem_append, List.mem_map, Option.mem_toList]
  rfl

/-- The root of the declared name is its own root. -/
theorem root_of_declaredRoot? (h : report.remark.declaredRoot? = some key) :
    Text.root key = key := by
  obtain ⟨declared, -, rfl⟩ := Option.map_eq_some_iff.mp h
  exact Text.root_root declared

/-- **The roots of the surface** are that of the declared name and those of the names assigned from
the declaration on. -/
theorem mem_keys_declaredSurface :
    key ∈ Keyed.keys (declaredSurface report) ↔
      report.remark.declaredRoot? = some key
        ∨ ∃ written ∈ writesFromDeclaration report, written.root = key := by
  rw [declaredSurface, mem_keys_writtenBindings]
  constructor
  · rintro ⟨name, hname, rfl⟩
    rcases mem_declaredNames.mp hname with ⟨written, hwritten, rfl⟩ | hroot
    · exact .inr ⟨written, hwritten, rfl⟩
    · exact .inl (by rwa [root_of_declaredRoot? hroot])
  · rintro (hroot | ⟨written, hwritten, rfl⟩)
    · exact ⟨key, mem_declaredNames.mpr (.inr hroot), root_of_declaredRoot? hroot⟩
    · exact ⟨written.name, mem_declaredNames.mpr (.inl ⟨written, hwritten, rfl⟩), rfl⟩

/-- **Each name assigned from the declaration on is exported**, also below a local. -/
theorem resolve_declaredSurface {written : Reference}
    (hwritten : written ∈ writesFromDeclaration report) :
    resolve (declaredSurface report) written.name = ⟨some .any, true⟩ := by
  have hname : written.name ∈ declaredNames report :=
    mem_declaredNames.mpr (.inl ⟨written, hwritten, rfl⟩)
  -- The surface is what binding the names in an empty whitelist leads to.
  have hbound := (resolve_bindAll_writtenBindings (.ofBase []) (declaredNames report)
    written.name).1 (.inl ⟨written.name, hname, Text.root_cons_memberPath_prefix written.name⟩)
  rw [ScopedWhitelist.resolve, ScopedWhitelist.entries_bindAll, ScopedWhitelist.entries_ofBase]
    at hbound
  rw [← hbound, declaredSurface]
  exact resolve_congr (lookup?_putAll_nil_writtenBindings _ _).symm

/-- A root of the surface that is no local is that of a name the policy takes for defined. -/
theorem exists_definedName_of_mem_keys (hkey : key ∈ Keyed.keys (declaredSurface report))
    (hglobal : key ∉ localNames report) : ∃ name ∈ definedNames report, Text.root name = key := by
  rcases mem_keys_declaredSurface.mp hkey with hroot | ⟨written, hwritten, rfl⟩
  · have hsame := root_of_declaredRoot? hroot
    exact ⟨key, mem_definedNames_of_declaredRoot? hroot (hsame.symm ▸ hglobal), hsame⟩
  · obtain ⟨href, hwrites⟩ := List.mem_filter.mp hwritten
    rw [Bool.and_eq_true] at hwrites
    exact ⟨written.name, mem_definedNames_of_write href hwrites.1 hglobal, rfl⟩

end

/-! ## The account of the surface -/

/-- **The surface of a declared module takes its names from all that the unit assigns.** For a unit
that declares itself a module and returns no local:

* the roots of its surface are that of the declared name and those of the names that it assigns from
  the declaration on;
* each of these names is exported, be it that of a global or of a member of a local;
* the roots that are no aliases of required modules are those of names that the policy takes for
  defined;
* so no root but the declared one is an alias exactly when, from the declaration on, the unit assigns
  nothing below an alias other than the declared root. -/
theorem exportSurface_keys (report : ReferenceReport) (hdeclared : report.remark.declared = true)
    (hreturned : report.remark.exported? = none) :
    let written := writesFromDeclaration report
    let root? := report.remark.declaredRoot?
    ∃ surface, exportSurface report = some surface
      ∧ (∀ key, key ∈ Keyed.keys surface ↔ root? = some key ∨ ∃ ref ∈ written, ref.root = key)
      ∧ (∀ ref ∈ written, resolve surface ref.name = ⟨some .any, true⟩)
      ∧ (∀ key ∈ Keyed.keys surface, key ∉ report.aliases →
        ∃ name ∈ definedNames report, Text.root name = key)
      ∧ ((∀ key ∈ Keyed.keys surface,
          root? = some key ∨ ∃ ref ∈ written, ref.root = key ∧ key ∉ report.aliases)
        ↔ ∀ ref ∈ written, ref.root ∈ report.aliases → root? = some ref.root) := by
  intro written root?
  refine ⟨declaredSurface report, exportSurface_of_declared hdeclared hreturned,
    fun key => mem_keys_declaredSurface, fun ref hwritten => resolve_declaredSurface hwritten,
    fun key hkey halias => ?_, ?_, ?_⟩
  · refine exists_definedName_of_mem_keys hkey ?_
    rwa [localNames, hreturned, Option.toList_none, List.append_nil]
  · intro hglobal ref hwritten halias
    have hkey : ref.root ∈ Keyed.keys (declaredSurface report) :=
      mem_keys_declaredSurface.mpr (.inr ⟨ref, hwritten, rfl⟩)
    rcases hglobal ref.root hkey with hroot | ⟨_, _, _, hnone⟩
    · exact hroot
    · exact absurd halias hnone
  · intro hlocal key hkey
    rcases mem_keys_declaredSurface.mp hkey with hroot | ⟨ref, hwritten, rfl⟩
    · exact .inl hroot
    · by_cases halias : ref.root ∈ report.aliases
      · exact .inl (hlocal ref hwritten halias)
      · exact .inr ⟨ref, hwritten, rfl, halias⟩

/-- A unit that declares itself the module `m` and then assigns a member of a local that holds a
required module. -/
def aliasListing : String :=
  "main <m.lua:0,0>
0 params,
1 [1] GETGLOBAL 0 -1 ; require
2 [1] LOADK 1 -2 ; \"x\"
3 [1] CALL 0 2 2
4 [2] GETGLOBAL 1 -3 ; module
5 [2] LOADK 2 -4 ; \"m\"
6 [2] CALL 1 2 1
7 [3] SETTABLE 0 -5 -6 ; \"y\" 1
8 [3] RETURN 0 1
locals (1)
0 t 4 9
"

/-- The one function of that listing. -/
def aliasMain : FunctionListing :=
  { kind := .main
    source := "m.lua"
    lineDefined := 0
    instructions := [
      ⟨1, 1, "GETGLOBAL", some 0, some (-1), none, some "require", none⟩,
      ⟨2, 1, "LOADK", some 1, some (-2), none, some "x", none⟩,
      ⟨3, 1, "CALL", some 0, some 2, some 2, none, none⟩,
      ⟨4, 2, "GETGLOBAL", some 1, some (-3), none, some "module", none⟩,
      ⟨5, 2, "LOADK", some 2, some (-4), none, some "m", none⟩,
      ⟨6, 2, "CALL", some 1, some 2, some 1, none, none⟩,
      ⟨7, 3, "SETTABLE", some 0, some (-5), some (-6), some "y", none⟩,
      ⟨8, 3, "RETURN", some 0, some 1, none, none, none⟩]
    scope := ⟨[⟨0, "t", 3, 9, false⟩], []⟩ }

/-- The local is exported beside the declared name, with the member. -/
theorem aliasListing_exports_local :
    ∃ report surface, analyzeListing aliasListing = .ok report
      ∧ report.remark.declaredRoot? = some "m" ∧ report.aliases = ["t"]
      ∧ exportSurface report = some surface
      ∧ "t" ∈ Keyed.keys surface ∧ resolve surface "t.y" = ⟨some .any, true⟩ := by
  have hread : readFunctions (.ofText aliasListing) = ([aliasMain], none) := by decide +kernel
  have hanalyze : analyzeListing aliasListing = .ok (resolveFunctions [aliasMain]).report := by
    rw [analyzeListing, resolveListing, hread]
    rfl
  have hwritten : ⟨3, "t.y", true⟩ ∈ writesFromDeclaration (resolveFunctions [aliasMain]).report := by
    decide +kernel
  obtain ⟨surface, hsurface, hkeys, hnames, -⟩ :=
    exportSurface_keys (resolveFunctions [aliasMain]).report (by decide) (by decide)
  have hroot : "t" ∈ Keyed.keys surface := (hkeys "t").mpr (.inr ⟨_, hwritten, by decide +kernel⟩)
  exact ⟨_, surface, hanalyze, by decide +kernel, by decide, hsurface, hroot, hnames _ hwritten⟩

end LuaGlobals
