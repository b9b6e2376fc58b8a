import LuaGlobals.Proofs.Policy.Tolerant

/-! # Tolerance follows the order of definitions

In tolerant mode a walk learns the root of each assignment that it meets. What it finds on a
reference is said here without the walk, by the whitelist at the start and the references before.

* `findingAfter` is the finding on a reference behind some others.
* **`Learned`** is the invariant of a tolerant walk, `Learned.step` its step.
* **`tolerant_tracks_definitions`**: the findings on a unit in tolerant mode, reference by
  reference. -/

namespace LuaGlobals

open Whitelist

/-! ## Findings by the references before -/

/-- The finding on a read of a member that a known table lacks. -/
def unknownField (unit : String) (ref : Reference) : Diagnostic :=
  ⟨unit, ref.line, .warning, "unknown field" ++ " \x60" ++ ref.name ++ "\x60", some ref.name⟩

/-- Whether some of the references assign a name with a given root. -/
def assigns (references : List Reference) (root : String) : Bool :=
  references.any fun ref => ref.write && ref.root == root

/-- The finding on a reference behind others that were judged before: none on an assignment, and on
a read by the whitelist at the start if that has the root. Any other root must have been assigned. -/
def findingAfter (unit : String) (start : Entries) (earlier : List Reference) (ref : Reference) :
    Option Diagnostic :=
  if ref.write then none
  else if ref.root ∈ Keyed.keys start then
    if (resolve start ref.name).node?.isNone then some (unknownField unit ref) else none
  else if assigns earlier ref.root then none
  else some (undefinedGet unit ref)

/-- A read that is not assigned before is an error, and one behind an assignment is none. -/
example : findingAfter "u.lua" [] [] ⟨2, "f.x", false⟩
      = some ⟨"u.lua", 2, .error, "undefined get \x60f.x\x60", some "f.x"⟩
    ∧ findingAfter "u.lua" [] [⟨1, "f", true⟩] ⟨2, "f.x", false⟩ = none := by
  decide +kernel

/-! ## What a walk has learned -/

/-- **A whitelist has learned the roots that some references assign**: it has the entries of the
start, and a root that is new may stand for everything once it is assigned. -/
structure Learned (start : Entries) (earlier : List Reference) (whitelist : Entries) : Prop where
  /-- A root of the start keeps its entry. -/
  known : ∀ {root}, root ∈ Keyed.keys start →
    Keyed.lookup? root whitelist = Keyed.lookup? root start
  /-- A new root has an entry once it is assigned. -/
  fresh : ∀ {root}, root ∉ Keyed.keys start →
    Keyed.lookup? root whitelist = if assigns earlier root then some .any else none

/-- At the start nothing is learned. -/
theorem Learned.start (start : Entries) : Learned start [] start where
  known _ := rfl
  fresh h := Keyed.lookup?_eq_none_iff.mpr h

/-- The last reference assigns a root, or one before it does. -/
theorem assigns_append (earlier : List Reference) (ref : Reference) (root : String) :
    assigns (earlier ++ [ref]) root
      = (assigns earlier root || (ref.write && ref.root == root)) := by
  simp [assigns]

/-- The entry of a root behind an assignment. -/
theorem lookup?_permitRoot (whitelist : Entries) (ref : Reference) (root : String) :
    Keyed.lookup? root (permitRoot whitelist ref)
      = (Keyed.lookup? root whitelist).or (if ref.root = root then some .any else none) := by
  unfold permitRoot
  split
  case isTrue hknown =>
      by_cases hroot : ref.root = root
      · rw [← Keyed.lookup?_isSome_iff, hroot, Option.isSome_iff_exists] at hknown
        obtain ⟨node, hnode⟩ := hknown
        rw [hnode, Option.some_or]
      · rw [if_neg hroot, Option.or_none]
  case isFalse hnew =>
      by_cases hroot : ref.root = root
      · rw [← hroot, Keyed.lookup?_put_self, if_pos rfl, Keyed.lookup?_eq_none_iff.mpr hnew,
          Option.none_or]
      · rw [Keyed.lookup?_put_of_ne (Ne.symm hroot), if_neg hroot, Option.or_none]

/-- **One step** of a tolerant walk: it learns the root of an assignment, and nothing from a
read. -/
theorem Learned.step {start whitelist : Entries} {earlier : List Reference}
    (h : Learned start earlier whitelist) (ref : Reference) :
    Learned start (earlier ++ [ref])
      (if ref.write then permitRoot whitelist ref else whitelist) := by
  cases hwrite : ref.write with
  | false =>
      have hassigns (root : String) : assigns (earlier ++ [ref]) root = assigns earlier root := by
        rw [assigns_append, hwrite, Bool.false_and, Bool.or_false]
      exact ⟨h.known, fun hroot => by rw [hassigns]; exact h.fresh hroot⟩
  | true =>
      rw [if_pos rfl]
      refine ⟨?_, ?_⟩
      · intro root hroot
        rw [← Keyed.lookup?_isSome_iff, Option.isSome_iff_exists] at hroot
        obtain ⟨node, hnode⟩ := hroot
        have hkept := h.known (Keyed.lookup?_isSome_iff root start |>.mp (by rw [hnode]; rfl))
        rw [lookup?_permitRoot, hkept, hnode, Option.some_or]
      · intro root hroot
        rw [lookup?_permitRoot, h.fresh hroot, assigns_append, hwrite, Bool.true_and]
        by_cases hbefore : assigns earlier root = true
        · simp [hbefore]
        · by_cases hnow : ref.root = root <;> simp [hbefore, hnow]

/-- **The verdict on a read** by what a walk has learned. -/
theorem Learned.verdict_eq {start whitelist : Entries} {earlier : List Reference}
    (h : Learned start earlier whitelist) (unit : String) {ref : Reference}
    (hread : ref.write = false) :
    verdict unit whitelist ref = findingAfter unit start earlier ref := by
  unfold findingAfter
  rw [hread, if_neg Bool.false_ne_true]
  by_cases hroot : ref.root ∈ Keyed.keys start
  · have hentry := h.known hroot
    have hknown : ref.root ∈ Keyed.keys whitelist := by
      rwa [← Keyed.lookup?_isSome_iff, hentry, Keyed.lookup?_isSome_iff]
    have hresolve : resolve whitelist ref.name = resolve start ref.name := resolve_congr hentry
    rw [if_pos hroot]
    unfold verdict
    rw [hresolve, hread]
    cases (resolve start ref.name).node? with
    | none => simp [hknown, unknownField]
    | some node => cases node <;> rfl
  · have hentry := h.fresh hroot
    rw [if_neg hroot]
    cases hassigned : assigns earlier ref.root with
    | true =>
        rw [hassigned] at hentry
        exact verdict_of_lookup?_any hentry
    | false =>
        rw [hassigned] at hentry
        have hunknown : ref.root ∉ Keyed.keys whitelist := Keyed.lookup?_eq_none_iff.mp hentry
        unfold verdict
        rw [resolve_eq_of_not_mem hunknown, hread]
        simp [hunknown, undefinedGet]

/-! ## A whole walk -/

/-- **The findings of a tolerant walk** behind some references. -/
theorem tolerantFindings_eq {unit : String} {start whitelist : Entries}
    {earlier references : List Reference} (h : Learned start earlier whitelist) :
    tolerantFindings unit whitelist references
      = (references.zipIdx earlier.length).filterMap fun (ref, place) =>
        findingAfter unit start ((earlier ++ references).take place) ref := by
  induction references generalizing earlier whitelist with
  | nil => rfl
  | cons ref rest ih =>
      have hearlier : (earlier ++ ref :: rest).take earlier.length = earlier :=
        List.take_left
      have hrest := ih (h.step ref)
      rw [List.length_append, List.length_singleton, List.append_assoc,
        List.singleton_append] at hrest
      rw [tolerantFindings]
      simp only [List.zipIdx_cons, List.filterMap_cons, hearlier]
      cases hwrite : ref.write with
      | true =>
          rw [hwrite] at hrest
          have hnone : findingAfter unit start earlier ref = none := by
            rw [findingAfter, hwrite, if_pos rfl]
          rw [if_pos rfl, hnone]
          exact hrest
      | false =>
          rw [hwrite] at hrest
          rw [if_neg Bool.false_ne_true, h.verdict_eq unit hwrite]
          cases findingAfter unit start earlier ref with
          | none => exact hrest
          | some finding => exact congrArg (finding :: ·) hrest

/-- **Tolerance follows the order of definitions.** The findings on a unit in tolerant mode are the
requirements that failed, in their order, then what the judged references give in the order of
their lines, each by the whitelist after the set-up and by the judged references before it. An
assignment has no finding. A read is an error when the set-up does not have its root and no
assignment before it does; where the set-up has the root, a name that it lacks is a warning. How
the unit is a module matters to the set-up alone. -/
theorem tolerant_tracks_definitions (globalsWithinModule loadRequires : Bool) (base : Entries)
    (unit : String) (report : ReferenceReport) (outcomes : List RequirementOutcome) :
    let options : ScopingOptions := ⟨true, globalsWithinModule, loadRequires⟩
    let start := (setup options base report outcomes).entries
    let judged := (inLineOrder report.references).filter fun ref =>
      loadRequires || ref.root ∉ report.aliases
    (evaluate options base unit report outcomes).1.diagnostics
        = (if loadRequires then outcomes.filterMap (requireFailure? unit) else [])
          ++ (judged.zipIdx.filterMap fun (ref, place) =>
            findingAfter unit start (judged.take place) ref)
      ∧ LineOrder report.references (inLineOrder report.references)
      ∧ ∀ remark : ModuleRemark,
          (setup options base { report with remark } outcomes).entries = start →
            (evaluate options base unit { report with remark } outcomes).1.diagnostics
              = (evaluate options base unit report outcomes).1.diagnostics := by
  intro options start judged
  have hjudged : judgedReferences options report = judged := by
    unfold judgedReferences skippedRoots
    cases loadRequires <;> simp [options, judged]
  have hdiagnostics (remark : ModuleRemark)
      (hstart : (setup options base { report with remark } outcomes).entries = start) :
      (evaluate options base unit { report with remark } outcomes).1.diagnostics
        = (if loadRequires then outcomes.filterMap (requireFailure? unit) else [])
          ++ judged.zipIdx.filterMap fun (ref, place) =>
            findingAfter unit start (judged.take place) ref := by
    have hsame : judgedReferences options { report with remark } = judged := hjudged
    rw [diagnostics_evaluate_tolerant rfl, hsame, ← entries_setup, hstart]
    exact congrArg _ (tolerantFindings_eq (Learned.start start))
  refine ⟨hdiagnostics report.remark rfl, lineOrder_inLineOrder _, ?_⟩
  intro remark hstart
  rw [hdiagnostics remark hstart]
  exact (hdiagnostics report.remark rfl).symm

end LuaGlobals
