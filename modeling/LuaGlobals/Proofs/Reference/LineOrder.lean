import LuaGlobals.Proofs.Reference.Chaining

/-! # The lines of references

References come in the order of the accesses that make them, and each stands on the line of its
access, with one exception: the field of a captured module stands on the line on which the module
was loaded, and becomes known at the field access only.

* `Access.origin` is the access on whose line a reference stands.
* `Access.interjects` says which accesses add a reference while a read waits.
* **`pairwise_line_referencesOf_iff`**: what keeps the lines of references in order.
* **`walk_lines_ordered_iff`** says so of the references that a walk over a function adds. -/

namespace LuaGlobals

/-! ## References one behind the other -/

/-- A reference is that of an access between those around it. -/
theorem mem_referencesAfter_iff {earlier accesses : List Access} {ref : Reference} :
    ref ∈ referencesAfter earlier accesses ↔
      ∃ front access back, accesses = front ++ access :: back
        ∧ ref ∈ referenceAt? (earlier ++ front) access back := by
  induction accesses generalizing earlier with
  | nil => simp [referencesAfter]
  | cons first later ih =>
      rw [referencesAfter, List.mem_append, Option.mem_toList, ih]
      constructor
      · rintro (hfirst | ⟨front, access, back, rfl, href⟩)
        · exact ⟨[], first, later, rfl, by simpa using hfirst⟩
        · exact ⟨first :: front, access, back, rfl, by simpa using href⟩
      · rintro ⟨front, access, back, hsplit, href⟩
        cases front with
        | nil =>
            obtain ⟨rfl, rfl⟩ := List.cons.inj hsplit
            exact .inl (by simpa using href)
        | cons _ front =>
            obtain ⟨rfl, rfl⟩ := List.cons.inj hsplit
            exact .inr ⟨front, access, back, rfl, by simpa using href⟩

/-- **References are related in pairs** if those of any two accesses are. -/
theorem pairwise_referencesAfter_iff {related : Reference → Reference → Prop}
    {earlier accesses : List Access} :
    (referencesAfter earlier accesses).Pairwise related ↔
      ∀ front first middle second back,
        accesses = front ++ first :: middle ++ second :: back →
        ∀ ref ∈ referenceAt? (earlier ++ front) first (middle ++ second :: back),
        ∀ ref' ∈ referenceAt? (earlier ++ (front ++ first :: middle)) second back,
          related ref ref' := by
  induction accesses generalizing earlier with
  | nil => simp [referencesAfter]
  | cons access later ih =>
      rw [referencesAfter, List.pairwise_append, ih]
      constructor
      · rintro ⟨-, hlater, hcross⟩ front first middle second back hsplit ref href ref' href'
        cases front with
        | nil =>
            obtain ⟨rfl, rfl⟩ := List.cons.inj hsplit
            refine hcross ref (by simpa using href) ref' (mem_referencesAfter_iff.mpr ?_)
            exact ⟨middle, second, back, rfl, by simpa using href'⟩
        | cons _ front =>
            obtain ⟨rfl, rfl⟩ := List.cons.inj hsplit
            exact hlater front first middle second back rfl ref (by simpa using href) ref'
              (by simpa using href')
      · intro hall
        refine ⟨?_, ?_, ?_⟩
        · cases referenceAt? earlier access later <;> simp
        · rintro front first middle second back rfl ref href ref' href'
          exact hall (access :: front) first middle second back rfl ref (by simpa using href) ref'
            (by simpa using href')
        · intro ref href ref' href'
          obtain ⟨middle, second, back, rfl, hsecond⟩ := mem_referencesAfter_iff.mp href'
          exact hall [] access middle second back rfl ref (by simpa using href) ref'
            (by simpa using hsecond)

/-! ## The line of a reference -/

/-- Only a field access completes a read. -/
theorem completed?_of_field?_eq_none {access : Access} (h : access.field? = none)
    (earlier : List Access) : completed? earlier access = none := by
  rw [completed?, Option.filter_eq_none_iff]
  intro read _
  simp [read.completedBy_of_field?_eq_none access h]

/-- A field access that does not complete the read that waits completes none. -/
theorem completed?_of_passed (before : List Access) {read : Access} {between : List Access}
    {access : Access} (hawaited : read.awaited?.isSome = true)
    (hlatest : ∀ other ∈ between, other.supersedes = false)
    (hpassed : read.completedBy access = false) :
    completed? (before ++ read :: between) access = none := by
  rw [completed?, waiting?_of_latest before hawaited hlatest, Option.filter_eq_none_iff]
  intro other hother
  obtain ⟨hread, -⟩ := Option.filter_eq_some_iff.mp hother
  obtain rfl := Option.some.inj hread
  simp [hpassed]

namespace Access

/-- The access on whose line the reference of an access stands: the read that it completes, or the
access itself. -/
def origin (earlier : List Access) (access : Access) : Access :=
  (completed? earlier access).getD access

/-- The reference of a read stands on the line of the read. -/
theorem line_reference (read : Access) (name : String) (completion? : Option Access) :
    (read.reference name completion?).line = read.instruction.line := by
  unfold reference
  split <;> rfl

/-- Only a field access has completed a read. -/
theorem exists_field_of_completed? {earlier : List Access} {access read : Access}
    (h : completed? earlier access = some read) :
    ∃ key write holder?, access.kind = .field key write holder? := by
  cases hkind : access.kind with
  | field key write holder? => exact ⟨key, write, holder?, rfl⟩
  | read | require | assign | load | unrelated =>
      rw [completed?_of_field?_eq_none (by simp [field?, hkind])] at h
      cases h

/-- **A field access that completes a read** adds the reference of the read if that is the load of a
captured module, whose reference has no place yet. -/
theorem mem_referenceAt?_iff {earlier later : List Access} {access read : Access}
    (hcompleted : completed? earlier access = some read) {ref : Reference} :
    ref ∈ referenceAt? earlier access later ↔
      ∃ name, read.kind = .load name ∧ ref = read.reference name (some access) := by
  obtain ⟨key, write, holder?, hkind⟩ := exists_field_of_completed? hcompleted
  unfold referenceAt?
  rw [hkind]
  dsimp only
  rw [hcompleted]
  cases hread : read.kind with
  | load name => simp [hread, eq_comm]
  | read | require | assign | field | unrelated => simp [hread]

/-- The reference of an access that completes no read stands on the line of the access. -/
theorem line_of_completed?_eq_none {earlier later : List Access} {access : Access}
    (hnone : completed? earlier access = none) {ref : Reference}
    (h : ref ∈ referenceAt? earlier access later) : ref.line = access.instruction.line := by
  unfold referenceAt? at h
  cases hkind : access.kind with
  | read name | require =>
      rw [hkind] at h
      obtain rfl := Option.mem_some.mp h
      exact line_reference ..
  | assign name =>
      rw [hkind] at h
      obtain rfl := Option.mem_some.mp h
      rfl
  | field key write holder? =>
      rw [hkind] at h
      dsimp only at h
      rw [hnone] at h
      obtain ⟨holder, -, rfl⟩ := Option.map_eq_some_iff.mp h
      rfl
  | load name | unrelated => simp [hkind] at h

/-- **A reference stands on the line of its origin.** -/
theorem line_of_mem_referenceAt? {earlier later : List Access} {access : Access} {ref : Reference}
    (h : ref ∈ referenceAt? earlier access later) :
    ref.line = (access.origin earlier).instruction.line := by
  unfold origin
  cases hcompleted : completed? earlier access with
  | none => exact line_of_completed?_eq_none hcompleted h
  | some read =>
      obtain ⟨name, -, rfl⟩ := (mem_referenceAt?_iff hcompleted).mp h
      exact line_reference ..

/-- Whether an access adds a reference behind a read and lets it wait on: it assigns a global or a
field of a captured module, or accesses a field of a known local. -/
def interjects (access : Access) : Bool :=
  match access.kind with
  | .assign _ => true
  | .field _ _ holder? => holder?.isSome
  | .read _ | .require | .load _ | .unrelated => false

/-- An access that neither is a read nor completes one makes a reference if it interjects. -/
theorem isSome_referenceAt?_of_passed {earlier : List Access} (later : List Access)
    {access : Access} (hlatest : access.supersedes = false)
    (hcompleted : completed? earlier access = none) :
    (referenceAt? earlier access later).isSome = access.interjects := by
  unfold referenceAt? interjects
  unfold supersedes at hlatest
  cases hkind : access.kind with
  | read | require | load => simp [hkind] at hlatest
  | assign | unrelated => rfl
  | field key write holder? =>
      dsimp only
      rw [hcompleted]
      exact Option.isSome_map

/-- **Between a read and its completion** no access completes a read, and those that interject add
references. -/
theorem Completes.between {read access other : Access} {front back : List Access}
    (h : read.Completes (front ++ other :: back) access) (before later : List Access) :
    completed? (before ++ read :: front) other = none
      ∧ (referenceAt? (before ++ read :: front) other later).isSome = other.interjects := by
  obtain ⟨hfront, hpassed⟩ := List.forall_mem_append.mp h.passed
  obtain ⟨hlatest, hopen⟩ := hpassed other List.mem_cons_self
  have hnone : completed? (before ++ read :: front) other = none :=
    completed?_of_passed before h.awaited (fun earlier hearlier => (hfront earlier hearlier).1) hopen
  exact ⟨hnone, isSome_referenceAt?_of_passed later hlatest hnone⟩

end Access

/-! ## Lines in order -/

/-- Of two members of a list one stands before the other, or they are the same. -/
theorem split_cases {α : Type} {front middle before between : List α} {first read : α}
    (h : front ++ first :: middle = before ++ read :: between) :
    (∃ inner, before = front ++ first :: inner ∧ middle = inner ++ read :: between)
      ∨ (before = front ∧ first = read ∧ middle = between)
      ∨ ∃ inner, front = before ++ read :: inner ∧ between = inner ++ first :: middle := by
  rcases List.append_eq_append_iff.mp h with ⟨inner, hbefore, hfirst⟩ | ⟨inner, hfront, hread⟩
  · cases inner with
    | nil =>
        obtain ⟨rfl, rfl⟩ := List.cons.inj hfirst
        exact .inr (.inl ⟨by simpa using hbefore, rfl, rfl⟩)
    | cons _ inner =>
        obtain ⟨rfl, rfl⟩ := List.cons.inj hfirst
        exact .inl ⟨inner, hbefore, rfl⟩
  · cases inner with
    | nil =>
        obtain ⟨rfl, rfl⟩ := List.cons.inj hread
        exact .inr (.inl ⟨by simpa using hfront.symm, rfl, rfl⟩)
    | cons _ inner =>
        obtain ⟨rfl, rfl⟩ := List.cons.inj hread
        exact .inr (.inr ⟨inner, hfront, rfl⟩)

/-- The accesses of code are those of its instructions. -/
theorem Surroundings.map_instruction_accesses (around : Surroundings) (code : List Instruction) :
    (around.accesses code).map (·.instruction) = code := by
  induction code generalizing around with
  | nil => rfl
  | cons ins rest ih => rw [accesses, List.map_cons, ih]

/-- Lines do not decrease from access to access. -/
def LinesOrdered (accesses : List Access) : Prop :=
  accesses.Pairwise fun access later => access.instruction.line ≤ later.instruction.line

namespace LinesOrdered

variable {front middle back : List Access} {first second : Access}

/-- Lines do not decrease from one access to another behind it. -/
theorem line_le (h : LinesOrdered (front ++ first :: middle ++ second :: back)) :
    first.instruction.line ≤ second.instruction.line :=
  (List.pairwise_append.mp h).2.2 first (by simp) second List.mem_cons_self

/-- The origin of a reference is not behind its access. -/
theorem line_origin_le (h : LinesOrdered (front ++ first :: back)) :
    (first.origin front).instruction.line ≤ first.instruction.line := by
  unfold Access.origin
  cases hcompleted : completed? front first with
  | none => exact Nat.le_refl _
  | some read =>
      obtain ⟨before, between, rfl, -⟩ := completed?_eq_some_iff.mp hcompleted
      exact line_le h

end LinesOrdered

/-- **The lines of references are in order** exactly if, wherever a field access completes the load
of a captured module, no access between them adds a reference on a line behind that of the load. -/
theorem pairwise_line_referencesOf_iff {accesses : List Access} (h : LinesOrdered accesses) :
    ((referencesOf accesses).Pairwise fun ref later => ref.line ≤ later.line) ↔
      ∀ before read between access after name,
        accesses = before ++ read :: between ++ access :: after → read.Completes between access →
          read.kind = .load name → ∀ other ∈ between, other.interjects = true →
            other.instruction.line ≤ read.instruction.line := by
  rw [referencesOf, pairwise_referencesAfter_iff]
  simp only [List.nil_append]
  constructor
  · -- The reference of the other access comes before the one on the line of the load.
    intro hordered before read between access after name hsplit hcompletes hload other hother
      hinterjects
    obtain ⟨front, back, rfl⟩ := List.append_of_mem hother
    obtain ⟨hnone, hadds⟩ := hcompletes.between before (back ++ access :: after)
    have hsome : completed? (before ++ read :: front ++ other :: back) access = some read :=
      completed?_eq_some_iff.mpr ⟨before, front ++ other :: back, by simp, hcompletes⟩
    obtain ⟨ref, href⟩ := Option.isSome_iff_exists.mp (hadds.trans hinterjects)
    have href' : read.reference name (some access)
        ∈ referenceAt? (before ++ read :: front ++ other :: back) access after :=
      (Access.mem_referenceAt?_iff hsome).mpr ⟨name, hload, rfl⟩
    have hle := hordered (before ++ read :: front) other back access after (by rw [hsplit]; simp)
      ref href _ href'
    rw [Access.line_of_completed?_eq_none hnone href, Access.line_reference] at hle
    exact Int.ofNat_le.mp hle
  · intro hload front first middle second back hsplit ref href ref' href'
    subst hsplit
    have hfront : (first.origin front).instruction.line ≤ first.instruction.line := by
      rw [List.append_assoc, List.cons_append] at h
      exact h.line_origin_le
    -- So only the origin of the second reference can stand on a line before the first one.
    suffices hle : first.instruction.line
        ≤ (second.origin (front ++ first :: middle)).instruction.line by
      rw [Access.line_of_mem_referenceAt? href, Access.line_of_mem_referenceAt? href']
      exact Int.ofNat_le.mpr (hfront.trans hle)
    unfold Access.origin
    cases hcompleted : completed? (front ++ first :: middle) second with
    | none => exact h.line_le
    | some read =>
        obtain ⟨name, hname, -⟩ := (Access.mem_referenceAt?_iff hcompleted).mp href'
        obtain ⟨before, between, hparts, hcompletes⟩ := completed?_eq_some_iff.mp hcompleted
        dsimp only [Option.getD_some]
        -- The first access stands before the load, is the load, or stands behind it.
        rcases split_cases hparts with ⟨inner, -, rfl⟩ | ⟨-, rfl, -⟩ | ⟨inner, rfl, rfl⟩
        · have hbefore : LinesOrdered
              (front ++ first :: inner ++ read :: (between ++ second :: back)) := by simpa using h
          exact hbefore.line_le
        · exact Nat.le_refl _
        · have hadds := (hcompletes.between before (middle ++ second :: back)).2
          have hinterjects : first.interjects = true := hadds.symm.trans (Option.isSome_of_mem href)
          exact hload before read (inner ++ first :: middle) second back name (by simp) hcompletes
            hname first (by simp) hinterjects

/-- The lines of the accesses are those of the instructions. -/
theorem linesOrdered_accesses (around : Surroundings) {code : List Instruction}
    (h : (code.map (·.line)).Pairwise (· ≤ ·)) : LinesOrdered (around.accesses code) := by
  rw [← around.map_instruction_accesses code, List.map_map, List.pairwise_map] at h
  exact h

/-- **When the references of a function come in the order of lines.** Let the lines of the
instructions of a function not decrease. Then the references that a walk over the function adds, in
whatever state it starts, have lines that do not decrease exactly if, wherever a field access
completes the load of a captured module, no access between them that adds a reference without ending
the wait, such as an assignment to a global or a field of a known local, is on a line behind that of
the load. -/
theorem walk_lines_ordered_iff (state : ResolverState) (listing : FunctionListing)
    (h : (listing.instructions.map (·.line)).Pairwise (· ≤ ·)) :
    let around : Surroundings := ⟨state.known, listing.scope⟩
    ∃ added, (state.walk listing).report.references = state.report.references ++ added
      ∧ ((added.map (·.line)).Pairwise (· ≤ ·) ↔
        ∀ before read between access after name,
          around.accesses listing.instructions = before ++ read :: between ++ access :: after →
            read.Completes between access → read.kind = .load name →
              ∀ other ∈ between, other.interjects = true →
                other.instruction.line ≤ read.instruction.line) := by
  intro around
  refine ⟨_, state.references_walk listing, ?_⟩
  rw [List.pairwise_map]
  exact pairwise_line_referencesOf_iff (linesOrdered_accesses around h)

/-- A listing with a function that loads a captured module, assigns a global on the next line and
then reads a field of the module. -/
def lateFieldListing : String :=
  "main <u.lua:0,0>
0 params,
1 [1] GETGLOBAL 0 -1 ; require
2 [1] LOADK 1 -2 ; \"x\"
3 [1] CALL 0 2 2
4 [6] CLOSURE 1 0 ; 0x2
5 [6] MOVE 0 0
6 [6] RETURN 1 2
7 [6] RETURN 0 1
locals (1)
0 t 4 7

function <u.lua:2,6>
0 params,
1 [3] GETUPVAL 0 0 ; t
2 [4] SETGLOBAL 0 -1 ; x
3 [5] GETTABLE 1 0 -2 ; \"k\"
4 [5] RETURN 1 2
5 [6] RETURN 0 1
locals (1)
0 u 2 5
upvalues (1)
0 t
"

/-- The main chunk of that listing. -/
def lateFieldMain : FunctionListing :=
  { kind := .main
    source := "u.lua"
    lineDefined := 0
    instructions := [
      ⟨1, 1, "GETGLOBAL", some 0, some (-1), none, some "require", none⟩,
      ⟨2, 1, "LOADK", some 1, some (-2), none, some "x", none⟩,
      ⟨3, 1, "CALL", some 0, some 2, some 2, none, none⟩,
      ⟨4, 6, "CLOSURE", some 1, some 0, none, none, none⟩,
      ⟨5, 6, "MOVE", some 0, some 0, none, none, none⟩,
      ⟨6, 6, "RETURN", some 1, some 2, none, none, none⟩,
      ⟨7, 6, "RETURN", some 0, some 1, none, none, none⟩]
    scope := ⟨[⟨0, "t", 3, 7, false⟩], []⟩ }

/-- The function inside it. -/
def lateFieldFunction : FunctionListing :=
  { kind := .function
    source := "u.lua"
    lineDefined := 2
    instructions := [
      ⟨1, 3, "GETUPVAL", some 0, some 0, none, some "t", none⟩,
      ⟨2, 4, "SETGLOBAL", some 0, some (-1), none, some "x", none⟩,
      ⟨3, 5, "GETTABLE", some 1, some 0, some (-2), some "k", none⟩,
      ⟨4, 5, "RETURN", some 1, some 2, none, none, none⟩,
      ⟨5, 6, "RETURN", some 0, some 1, none, none, none⟩]
    scope := ⟨[⟨0, "u", 1, 5, false⟩], [⟨0, "t"⟩]⟩ }

/-- The reference to the field comes last, on the line of the load. -/
theorem lateFieldListing_out_of_order :
    ∃ report, analyzeListing lateFieldListing = .ok report
      ∧ report.references = [⟨1, "require", false⟩, ⟨4, "x", true⟩, ⟨3, "t.k", false⟩]
      ∧ (lateFieldFunction.instructions.map (·.line)).Pairwise (· ≤ ·)
      ∧ ∃ added, report.references
          = (resolveFunctions [lateFieldMain]).report.references ++ added
        ∧ ¬ (added.map (·.line)).Pairwise (· ≤ ·) := by
  have hread : readFunctions (.ofText lateFieldListing)
      = ([lateFieldMain, lateFieldFunction], none) := by
    rw [lateFieldListing, ofText_ofList]
    decide +kernel
  have hanalyze : analyzeListing lateFieldListing
      = .ok ((resolveFunctions [lateFieldMain]).walk lateFieldFunction).report := by
    rw [analyzeListing, resolveListing, hread]
    rfl
  have hlines : (lateFieldFunction.instructions.map (·.line)).Pairwise (· ≤ ·) := by decide
  obtain ⟨added, hadded, hordered⟩ :=
    walk_lines_ordered_iff (resolveFunctions [lateFieldMain]) lateFieldFunction hlines
  refine ⟨_, hanalyze, by decide, hlines, added, hadded, fun hsorted => ?_⟩
  have hline := hordered.mp hsorted []
    ⟨⟨1, 3, "GETUPVAL", some 0, some 0, none, some "t", none⟩, .load "t"⟩
    [⟨⟨2, 4, "SETGLOBAL", some 0, some (-1), none, some "x", none⟩, .assign "x"⟩]
    ⟨⟨3, 5, "GETTABLE", some 1, some 0, some (-2), some "k", none⟩, .field "k" false none⟩
    [⟨⟨4, 5, "RETURN", some 1, some 2, none, none, none⟩, .unrelated⟩,
      ⟨⟨5, 6, "RETURN", some 0, some 1, none, none, none⟩, .unrelated⟩]
    "t" (by decide) ⟨by decide, by decide, by decide⟩ rfl _ (List.mem_singleton_self _) rfl
  exact absurd hline (by decide)

end LuaGlobals
