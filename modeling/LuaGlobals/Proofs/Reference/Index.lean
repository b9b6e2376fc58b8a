import LuaGlobals.Proofs.Policy.Finding
import LuaGlobals.Reference.Index
import Mathlib.Data.List.Sort
import Mathlib.Data.String.Basic

/-! # Indexes are exact

An index groups lines by names. What it holds is a relation between names and lines, and the order
in which it holds them is fixed, so the relation determines the index.

* **`IsIndex`** says that rows of names and lines are the index of a relation; `IsIndex.eq`: there
  is only one.
* **`keys_gatherLines`** and **`linesUnder_gatherLines`**: what the table holds in which lines are
  noted one after the other. `indexReferences_eq` and `dependencies_eq` read the indexes of a report
  off it, name by name.
* `isIndex_indexReferences` and `isIndex_dependencies` are for the two indexes of a report.
* **`report_indexed_exactly`** puts both together, with the findings of a check. -/

namespace LuaGlobals

/-! ## Indexes of a relation -/

/-- A line is listed under a name. -/
def Listed (index : List (String × List Int)) (name : String) (line : Int) : Prop :=
  ∃ lines, (name, lines) ∈ index ∧ line ∈ lines

/-- **Rows of names and lines are the index of a relation** between names and lines, with the names
in a given order. -/
structure IsIndex (before : String → String → Prop) (index : List (String × List Int))
    (related : String → Int → Prop) : Prop where
  /-- The names stand in order. -/
  names : (Keyed.keys index).Pairwise before
  /-- The lines of each name ascend strictly. -/
  lines : ∀ row ∈ index, row.2.Pairwise (· < ·)
  /-- No name stands without lines. -/
  occupied : ∀ row ∈ index, row.2 ≠ []
  /-- A line is listed under the names that it is related to. -/
  listed : ∀ name line, Listed index name line ↔ related name line

section

variable {before : String → String → Prop} {index other : List (String × List Int)}
  {related : String → Int → Prop}

/-- Rows of distinct names, each with all its lines in ascending order, are an index. -/
theorem isIndex_map {names : List String} {value : String → List Int}
    (hnames : names.Pairwise before) (hlines : ∀ name, (value name).Pairwise (· < ·))
    (hvalue : ∀ name line, line ∈ value name ↔ related name line)
    (hcovered : ∀ name, name ∈ names ↔ ∃ line, related name line) :
    IsIndex before (names.map fun name => (name, value name)) related where
  names := by
    rw [Keyed.keys, List.map_map]
    exact List.pairwise_map.mpr hnames
  lines := List.forall_mem_map.mpr fun name _ => hlines name
  occupied := by
    refine List.forall_mem_map.mpr fun name hname => ?_
    obtain ⟨line, hline⟩ := (hcovered name).mp hname
    exact List.ne_nil_of_mem ((hvalue name line).mpr hline)
  listed name line := by
    constructor
    · rintro ⟨lines, hmem, hline⟩
      obtain ⟨_, -, heq⟩ := List.mem_map.mp hmem
      cases heq
      exact (hvalue name line).mp hline
    · intro h
      exact ⟨value name, List.mem_map_of_mem ((hcovered name).mpr ⟨line, h⟩),
        (hvalue name line).mpr h⟩

/-- A name has one row in an index, so its lines are those that are listed. -/
theorem IsIndex.mem_lines_iff [Std.Irrefl before] (h : IsIndex before index related)
    {row : String × List Int} (hrow : row ∈ index) (line : Int) :
    line ∈ row.2 ↔ related row.1 line := by
  rw [← h.listed]
  refine ⟨fun hline => ⟨row.2, hrow, hline⟩, ?_⟩
  rintro ⟨lines, hmem, hline⟩
  have hsame : (row.1, lines) = row :=
    List.inj_on_of_nodup_map h.names.nodup hmem hrow rfl
  rwa [← hsame]

/-- A row of one index of a relation is a row of every other. -/
theorem IsIndex.mem_of_mem [Std.Irrefl before] (h : IsIndex before index related)
    (h' : IsIndex before other related) {row : String × List Int} (hrow : row ∈ index) :
    row ∈ other := by
  obtain ⟨line, hline⟩ := List.exists_mem_of_ne_nil _ (h.occupied row hrow)
  obtain ⟨lines, hmem, -⟩ := (h'.listed row.1 line).mpr ((h.mem_lines_iff hrow line).mp hline)
  have hlines : row.2 = lines :=
    (h.lines row hrow).sortedLT.eq_of_mem_iff (h'.lines _ hmem).sortedLT fun line =>
      (h.mem_lines_iff hrow line).trans (h'.mem_lines_iff hmem line).symm
  rwa [← hlines] at hmem

/-- **A relation has only one index.** -/
theorem IsIndex.eq [Std.Asymm before] [Std.Irrefl before] (h : IsIndex before index related)
    (h' : IsIndex before other related) : index = other := by
  have hrows {rows : List (String × List Int)} (hrows : IsIndex before rows related) :
      rows.Pairwise fun row later => before row.1 later.1 := List.pairwise_map.mp hrows.names
  have : Std.Irrefl fun (row later : String × List Int) => before row.1 later.1 :=
    ⟨fun row => Std.Irrefl.irrefl row.1⟩
  have : Std.Antisymm fun (row later : String × List Int) => before row.1 later.1 :=
    ⟨fun _ _ hlt hgt => absurd hgt (Std.Asymm.asymm _ _ hlt)⟩
  exact (hrows h).eq_of_mem_iff (hrows h') fun _ => ⟨h.mem_of_mem h', h'.mem_of_mem h⟩

/-- Relations that agree have the same index. -/
theorem IsIndex.eq_of_iff [Std.Asymm before] [Std.Irrefl before]
    {relatedOther : String → Int → Prop} (h : IsIndex before index related)
    (h' : IsIndex before other relatedOther)
    (hsame : ∀ name line, related name line ↔ relatedOther name line) : index = other := by
  have hrelated : related = relatedOther :=
    funext fun name => funext fun line => propext (hsame name line)
  exact h.eq (hrelated ▸ h')

end

/-! ## Lines noted one after the other -/

section

variable (index : LineIndex) (rows : List (String × Int)) (name : String)

/-- The lines that names come with, noted one after the other. -/
def gatherLines : LineIndex :=
  rows.foldl (fun index row => noteLine index row.1 row.2) []

/-- The lines of a name are kept once each, in the order in which they come. -/
def linesOf : List Int :=
  ((rows.filter (·.1 == name)).map Prod.snd).eraseDups

/-- The last line is noted last. -/
theorem gatherLines_concat (row : String × Int) :
    gatherLines (rows ++ [row]) = noteLine (gatherLines rows) row.1 row.2 := by
  rw [gatherLines, List.foldl_append]
  rfl

/-- Under the name of a line that is noted there is that line too. -/
theorem linesUnder_noteLine_self (line : Int) :
    linesUnder (noteLine index name line) name
      = if line ∈ linesUnder index name then linesUnder index name
        else linesUnder index name ++ [line] := by
  rw [linesUnder, noteLine, Keyed.lookup?_put_self]
  rfl

/-- Nothing changes under the other names. -/
theorem linesUnder_noteLine_of_ne {other : String} (h : name ≠ other) (line : Int) :
    linesUnder (noteLine index other line) name = linesUnder index name := by
  rw [linesUnder, noteLine, Keyed.lookup?_put_of_ne h]
  rfl

/-- **The names of the gathered lines**: each once, in the order in which they first come. -/
theorem keys_gatherLines : Keyed.keys (gatherLines rows) = (rows.map Prod.fst).eraseDups := by
  induction rows using List.reverseRecOn with
  | nil => rfl
  | append_singleton rows row ih =>
      rw [gatherLines_concat, noteLine, Keyed.keys_put, ih, List.map_append, List.map_singleton,
        eraseDups_concat]

/-- **The gathered lines of a name.** -/
theorem linesUnder_gatherLines : linesUnder (gatherLines rows) name = linesOf rows name := by
  induction rows using List.reverseRecOn with
  | nil => rfl
  | append_singleton rows row ih =>
      rw [gatherLines_concat, linesOf, List.filter_append, List.map_append]
      -- The last row counts only under its own name.
      by_cases h : row.1 = name
      · have hlast : [row].filter (·.1 == name) = [row] :=
          List.filter_cons_of_pos (beq_iff_eq.mpr h)
        rw [hlast, List.map_singleton, eraseDups_concat, ← linesOf, ← ih, ← h]
        exact linesUnder_noteLine_self _ _ _
      · have hlast : [row].filter (·.1 == name) = [] :=
          List.filter_cons_of_neg (mt beq_iff_eq.mp h)
        rw [hlast, List.map_nil, List.append_nil, ← linesOf, ← ih]
        exact linesUnder_noteLine_of_ne _ _ (Ne.symm h) _

/-- **The table of the gathered lines**, name by name. -/
theorem gatherLines_eq :
    gatherLines rows = (rows.map Prod.fst).eraseDups.map fun name => (name, linesOf rows name) := by
  have hkeys : (Keyed.keys (gatherLines rows)).Nodup := by
    rw [keys_gatherLines]
    exact nodup_eraseDups _
  rw [← keys_gatherLines, Keyed.keys, List.map_map]
  -- No name comes twice, so each entry is the one that is found under its name.
  refine (List.map_id _).symm.trans (List.map_congr_left fun entry hentry => ?_)
  rw [Function.comp_apply, ← linesUnder_gatherLines, linesUnder,
    Keyed.lookup?_of_mem hkeys hentry]
  rfl

end

/-! ## Ascending rows -/

/-- Sorting distinct values makes them ascend strictly. -/
theorem pairwise_lt_mergeSort {α : Type} [LinearOrder α] {values : List α} (h : values.Nodup)
    {le : α → α → Bool} (hle : ∀ a b, le a b = true ↔ a ≤ b) :
    (values.mergeSort le).Pairwise (· < ·) := by
  have hordered : (values.mergeSort le).Pairwise (le · ·) := by
    refine List.pairwise_mergeSort (fun a b c => ?_) (fun a b => ?_) values
    · rw [hle, hle, hle]
      exact le_trans
    · rw [Bool.or_eq_true, hle, hle]
      exact le_total a b
  have hascending : (values.mergeSort le).Pairwise (· ≤ ·) :=
    hordered.imp fun hab => (hle _ _).mp hab
  have hnodup : (values.mergeSort le).Nodup := (List.mergeSort_perm values le).nodup_iff.mpr h
  exact (hascending.sortedLE.sortedLT_of_nodup hnodup).pairwise

/-- The lines of a name, put in order, ascend strictly. -/
theorem pairwise_ascendingLines (rows : List (String × Int)) (name : String) :
    ((linesOf rows name).mergeSort (· ≤ ·)).Pairwise (· < ·) :=
  pairwise_lt_mergeSort (nodup_eraseDups _) fun _ _ => decide_eq_true_iff

/-- Distinct names, put in order, ascend strictly. -/
theorem pairwise_ascendingNames (names : List String) :
    (names.eraseDups.mergeSort (· ≤ ·)).Pairwise (· < ·) :=
  pairwise_lt_mergeSort (nodup_eraseDups names) fun _ _ => decide_eq_true_iff

/-- The lines of a name are those that it comes with. -/
theorem mem_linesOf_iff {rows : List (String × Int)} {name : String} {line : Int} :
    line ∈ linesOf rows name ↔ (name, line) ∈ rows := by
  rw [linesOf, List.mem_eraseDups]
  simp

/-- Values that are kept stand in the order of their first places. -/
theorem pairwise_idxOf_eraseDups (values : List String) :
    values.eraseDups.Pairwise fun first second => values.idxOf first < values.idxOf second := by
  induction values using List.reverseRecOn with
  | nil => exact .nil
  | append_singleton values value ih =>
      have hplace {kept : String} (hkept : kept ∈ values.eraseDups) :
          (values ++ [value]).idxOf kept = values.idxOf kept :=
        List.idxOf_append_of_mem (List.mem_eraseDups.mp hkept)
      have hkept : values.eraseDups.Pairwise fun first second =>
          (values ++ [value]).idxOf first < (values ++ [value]).idxOf second := by
        refine ih.imp_of_mem fun hfirst hsecond hlt => ?_
        rwa [hplace hfirst, hplace hsecond]
      rw [eraseDups_concat]
      split
      case isTrue => exact hkept
      case isFalse hnew =>
          refine List.pairwise_append.mpr ⟨hkept, List.pairwise_singleton _ value, ?_⟩
          intro first hfirst second hsecond
          rw [List.mem_singleton.mp hsecond, hplace hfirst, List.idxOf_append_of_notMem
            (fun hmem => hnew (List.mem_eraseDups.mpr hmem))]
          exact Nat.lt_add_right _ (List.idxOf_lt_length_of_mem (List.mem_eraseDups.mp hfirst))

/-! ## The indexes of a report -/

/-- Some of the references access a name on a line. -/
def Accessed (references : List Reference) (name : String) (line : Int) : Prop :=
  ∃ ref ∈ references, ref.name = name ∧ ref.line = line

/-- The names and lines of references, or of those alone that assign. -/
def accesses (writesOnly : Bool) (references : List Reference) : List (String × Int) :=
  (references.filter fun ref => !writesOnly || ref.write).map fun ref => (ref.name, ref.line)

/-- References that are passed over note nothing. -/
theorem foldl_noteReference (writesOnly : Bool) (references : List Reference) :
    references.foldl (noteReference writesOnly) []
      = gatherLines (accesses writesOnly references) := by
  rw [gatherLines, accesses, List.foldl_map, List.foldl_filter]
  congr 1
  funext index ref
  rw [noteReference]
  cases writesOnly <;> cases ref.write <;> rfl

/-- **The index of references, name by name.** -/
theorem indexReferences_eq (writesOnly : Bool) (references : List Reference) :
    indexReferences writesOnly references
      = (((accesses writesOnly references).map Prod.fst).eraseDups.mergeSort (· ≤ ·)).map
          fun name =>
            (name, (linesOf (accesses writesOnly references) name).mergeSort (· ≤ ·)) := by
  simp only [indexReferences, foldl_noteReference, keys_gatherLines, linesUnder_gatherLines]

/-- Names that come with lines are accessed on them. -/
theorem mem_accesses_iff {writesOnly : Bool} {references : List Reference} {name : String}
    {line : Int} :
    (name, line) ∈ accesses writesOnly references
      ↔ Accessed (references.filter fun ref => !writesOnly || ref.write) name line := by
  simp only [accesses, Accessed, List.mem_map, Prod.mk.injEq]

/-- **The index of references** has the names in the order of their code points. -/
theorem isIndex_indexReferences (writesOnly : Bool) (references : List Reference) :
    IsIndex (· < ·) (indexReferences writesOnly references)
      (Accessed (references.filter fun ref => !writesOnly || ref.write)) := by
  rw [indexReferences_eq]
  refine isIndex_map (pairwise_ascendingNames _) (fun name => pairwise_ascendingLines _ name)
    (fun name line => ?_) fun name => ?_
  · rw [List.mem_mergeSort, mem_linesOf_iff, mem_accesses_iff]
  · rw [List.mem_mergeSort, List.mem_eraseDups]
    simp only [← mem_accesses_iff, List.mem_map, Prod.exists, exists_and_right, exists_eq_right]

/-- Names ascend, and a line that comes twice is listed once. -/
example :
    indexReferences false [⟨4, "b", false⟩, ⟨1, "b", false⟩, ⟨4, "b", false⟩, ⟨2, "a", true⟩]
      = [("a", [2]), ("b", [1, 4])] := by
  cbv

/-- **The index of all accesses.** -/
theorem isIndex_crossReference (report : ReferenceReport) :
    IsIndex (· < ·) (crossReference report) (Accessed report.references) := by
  have hall : report.references.filter (fun ref => !false || ref.write) = report.references :=
    List.filter_true report.references
  have hindex := isIndex_indexReferences false report.references
  rwa [hall] at hindex

/-- **The index of assignments.** -/
theorem isIndex_writeReference (report : ReferenceReport) :
    IsIndex (· < ·) (writeReference report) (Accessed (report.references.filter (·.write))) :=
  isIndex_indexReferences true report.references

/-- A unit requires a module on a line. -/
def RequiredOn (report : ReferenceReport) (moduleName : String) (line : Int) : Prop :=
  ∃ requirement ∈ report.requirements,
    requirement.moduleName = moduleName ∧ requirement.line = line

/-- The first requirement of a module stands before that of another one. -/
def RequiredBefore (report : ReferenceReport) (first second : String) : Prop :=
  (report.requirements.map (·.moduleName)).idxOf first
    < (report.requirements.map (·.moduleName)).idxOf second

/-- The names and lines of requirements. -/
def requiredRows (report : ReferenceReport) : List (String × Int) :=
  report.requirements.map fun requirement => (requirement.moduleName, requirement.line)

/-- **The index of requirements, module by module.** -/
theorem dependencies_eq (report : ReferenceReport) :
    dependencies report
      = (report.requirements.map (·.moduleName)).eraseDups.map fun name =>
          (name, (linesOf (requiredRows report) name).mergeSort (· ≤ ·)) := by
  have hhits : report.requirements.foldl
      (fun index requirement => noteLine index requirement.moduleName requirement.line) []
      = gatherLines (requiredRows report) := by
    rw [gatherLines, requiredRows, List.foldl_map]
  rw [dependencies, hhits, gatherLines_eq, List.map_map, requiredRows, List.map_map]
  rfl

/-- **The index of requirements** has the modules in the order of their first requirements. -/
theorem isIndex_dependencies (report : ReferenceReport) :
    IsIndex (RequiredBefore report) (dependencies report) (RequiredOn report) := by
  rw [dependencies_eq]
  refine isIndex_map (pairwise_idxOf_eraseDups _) (fun name => pairwise_ascendingLines _ name)
    (fun name line => ?_) fun name => ?_
  · rw [List.mem_mergeSort, mem_linesOf_iff]
    simp only [requiredRows, RequiredOn, List.mem_map, Prod.mk.injEq]
  · simp [List.mem_eraseDups, RequiredOn]

/-! ## Findings on references -/

/-- The findings of a check on references, behind those on requirements, stand on lines that the
index has under their names. -/
theorem listed_of_mem_findings (options : ScopingOptions) (base : Whitelist.Entries) (unit : String)
    (report : ReferenceReport) (outcomes : List RequirementOutcome) :
    ∃ findings, (evaluate options base unit report outcomes).1.diagnostics
        = (if options.loadRequires then outcomes.filterMap (requireFailure? unit) else [])
          ++ findings
      ∧ ∀ finding ∈ findings, ∃ ref ∈ report.references, finding.name = some ref.name
        ∧ finding.line = ref.line ∧ Listed (crossReference report) ref.name ref.line := by
  refine ⟨_, diagnostics_evaluate_eq, fun finding hmem => ?_⟩
  obtain ⟨⟨ref, place⟩, hplace, hfinding⟩ := List.mem_filterMap.mp hmem
  have hjudged : ref ∈ judgedReferences options report := List.fst_mem_of_mem_zipIdx hplace
  have href : ref ∈ report.references := mem_inLineOrder.mp (List.mem_filter.mp hjudged).1
  obtain ⟨hline, hname⟩ := line_name_of_findingOn hfinding
  exact ⟨ref, href, hname, hline,
    ((isIndex_crossReference report).listed _ _).mpr ⟨ref, href, rfl, rfl⟩⟩

/-! ## The account of the indexes -/

/-- **The indexes of a report are exact.** For every report:

* each accessed name stands once, in the order of the code points, with the lines on which it is
  accessed in strictly ascending order, and the index of assignments does so for the references that
  assign;
* neither changes when references are permuted or repeated;
* each required module stands once, in the order of the first requirements, with the lines on which
  it is required in strictly ascending order;
* a check finds requirements that failed and then things on references, each of which stands on a
  line that the index has under its name. -/
theorem report_indexed_exactly (report : ReferenceReport) :
    IsIndex (· < ·) (crossReference report) (Accessed report.references)
      ∧ IsIndex (· < ·) (writeReference report) (Accessed (report.references.filter (·.write)))
      ∧ (∀ other : ReferenceReport, (∀ ref, ref ∈ other.references ↔ ref ∈ report.references) →
          crossReference other = crossReference report
            ∧ writeReference other = writeReference report)
      ∧ IsIndex (RequiredBefore report) (dependencies report) (RequiredOn report)
      ∧ ∀ (options : ScopingOptions) (base : Whitelist.Entries) (unit : String)
          (outcomes : List RequirementOutcome),
          ∃ findings, (evaluate options base unit report outcomes).1.diagnostics
              = (if options.loadRequires then outcomes.filterMap (requireFailure? unit) else [])
                ++ findings
            ∧ ∀ finding ∈ findings, ∃ ref ∈ report.references, finding.name = some ref.name
              ∧ finding.line = ref.line ∧ Listed (crossReference report) ref.name ref.line := by
  refine ⟨isIndex_crossReference report, isIndex_writeReference report, fun other hsame => ?_,
    isIndex_dependencies report, fun options base unit outcomes =>
      listed_of_mem_findings options base unit report outcomes⟩
  constructor
  · refine (isIndex_crossReference other).eq_of_iff (isIndex_crossReference report) fun name line =>
      exists_congr fun ref => and_congr_left' (hsame ref)
  · refine (isIndex_writeReference other).eq_of_iff (isIndex_writeReference report) fun name line =>
      exists_congr fun ref => and_congr_left' ?_
    rw [List.mem_filter, List.mem_filter, hsame ref]

/-- A report with two accesses to one name on one line, and another one on an earlier line. -/
def printingReport : ReferenceReport :=
  { ReferenceReport.empty with
    references := [⟨4, "print", false⟩, ⟨1, "print", false⟩, ⟨4, "print", false⟩,
      ⟨2, "helper", true⟩] }

/-- Its references in another order, one of them repeated, have the same index. -/
theorem printingReport_index_permuted :
    let other : ReferenceReport :=
      { ReferenceReport.empty with
        references := [⟨2, "helper", true⟩, ⟨1, "print", false⟩, ⟨2, "helper", true⟩,
          ⟨4, "print", false⟩] }
    (∀ ref, ref ∈ other.references ↔ ref ∈ printingReport.references)
      ∧ crossReference other = crossReference printingReport
      ∧ Listed (crossReference other) "print" 4 := by
  intro other
  have hsame (ref : Reference) : ref ∈ other.references ↔ ref ∈ printingReport.references := by
    simp only [other, printingReport, List.mem_cons, List.not_mem_nil, or_false]
    tauto
  obtain ⟨hindex, -, hpermuted, -⟩ := report_indexed_exactly printingReport
  have hcross := (hpermuted other hsame).1
  refine ⟨hsame, hcross, ?_⟩
  rw [hcross, hindex.listed]
  exact ⟨⟨4, "print", false⟩, List.mem_cons_self, rfl, rfl⟩

end LuaGlobals
