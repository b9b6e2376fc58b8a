import LuaGlobals.Proofs.Reference.TwoPass
import LuaGlobals.Proofs.Text.Dotted

/-! # Every read of a global is reported

Which globals a unit reads is plain from its instructions. The report has, for each of these reads,
a reference with its root: a field access may rename the reference but keeps the root.

* `FunctionScope.globalRead?` is the name of the global that an instruction reads.
* `globalRoots` lists the roots of the globals that a unit reads.
* **`exists_reference_of_mem_globalRoots`**: each of them is the root of a reference. -/

namespace LuaGlobals

/-! ## Reads of globals -/

/-- The captured variable that an instruction reads a field of: the one in the table of upvalues,
else the one that the comment names. -/
def FunctionScope.tableRead? (scope : FunctionScope) (ins : Instruction) : Option String :=
  ((scope.capturedAt? ins.b).map (·.name)).or ins.upvalue

/-- The global that an instruction reads, if it reads one with a known name: `GETGLOBAL` always
does, `GETTABUP` where it reads a field of the environment. -/
def FunctionScope.globalRead? (scope : FunctionScope) (ins : Instruction) : Option String :=
  if ins.opcode = "GETGLOBAL"
      ∨ ins.opcode = "GETTABUP" ∧ scope.tableRead? ins = some environmentName then
    ins.constant
  else none

/-- The roots of the globals that the functions of a unit read. -/
def globalRoots (functions : List FunctionListing) : List String :=
  functions.flatMap fun listing =>
    (listing.instructions.filterMap listing.scope.globalRead?).map Text.root

/-- A root is read where some instruction of some function reads a global with that root. -/
theorem mem_globalRoots {functions : List FunctionListing} {root : String} :
    root ∈ globalRoots functions ↔ ∃ listing ∈ functions, ∃ ins ∈ listing.instructions,
      ∃ name, listing.scope.globalRead? ins = some name ∧ Text.root name = root := by
  simp only [globalRoots, List.mem_flatMap, List.mem_map, List.mem_filterMap]
  constructor
  · rintro ⟨listing, hlisting, name, ⟨ins, hins, hname⟩, hroot⟩
    exact ⟨listing, hlisting, ins, hins, name, hname, hroot⟩
  · rintro ⟨listing, hlisting, ins, hins, name, hname, hroot⟩
    exact ⟨listing, hlisting, name, ⟨ins, hins, hname⟩, hroot⟩

/-- Which globals are read depends on the captured variables alone. -/
theorem globalRead?_congr {scope other : FunctionScope} (h : scope.captured = other.captured) :
    scope.globalRead? = other.globalRead? := by
  funext ins
  unfold FunctionScope.globalRead? FunctionScope.tableRead? FunctionScope.capturedAt?
  rw [h]

/-- A read of a global reads the environment. -/
theorem Surroundings.onEnvironment_of_globalRead? {around : Surroundings} {ins : Instruction}
    {name : String} (h : around.scope.globalRead? ins = some name) :
    ins.kind = .globalGet ∧ ins.constant = some name
      ∧ around.onEnvironment ins ins.b = true := by
  unfold FunctionScope.globalRead? at h
  split at h
  case isFalse => exact absurd h.symm (Option.some_ne_none name)
  case isTrue hopcode =>
      rcases hopcode with hglobal | ⟨htable, hread⟩
      · refine ⟨by rw [Instruction.kind, hglobal]; rfl, h, ?_⟩
        rw [onEnvironment, hglobal]
        rfl
      · refine ⟨by rw [Instruction.kind, htable]; rfl, h, ?_⟩
        have hname : around.tableName? ins ins.b = some environmentName := hread
        simp [onEnvironment, hname]

/-! ## Reads and their accesses -/

/-- An access that makes a reference with a given name, or with that of one of its members. -/
def Access.reads (access : Access) (name : String) : Prop :=
  access.kind = .read name ∨ access.kind = .require ∧ name = "require"

/-- A read of a global is classified as one. -/
theorem Surroundings.reads_of_globalRead? {around : Surroundings} {ins : Instruction}
    {name : String} (h : around.scope.globalRead? ins = some name) (rest : List Instruction) :
    Access.reads ⟨ins, around.classify ins rest⟩ name := by
  obtain ⟨hkind, hconstant, henvironment⟩ := onEnvironment_of_globalRead? h
  unfold Access.reads classify
  rw [hkind]
  dsimp only
  by_cases hrequires : (around.requires? ins rest).isSome = true
  -- The read of a call of the global `require` is one of that name.
  · refine Or.inr ⟨if_pos hrequires, ?_⟩
    unfold requires? at hrequires
    split at hrequires
    case isTrue hidiom =>
        rw [hconstant] at hidiom
        exact Option.some.inj hidiom.2.1
    case isFalse => exact absurd hrequires Bool.false_ne_true
  · refine Or.inl ?_
    rw [if_neg hrequires, hconstant, Option.bind_some,
      qualify?_of_onEnvironment henvironment]
    rfl

/-- What becomes known does not change the captured variables. -/
theorem Surroundings.captured_register (around : Surroundings) (index : Nat) :
    (around.register index).scope.captured = around.scope.captured := by
  unfold register
  split <;> rfl

/-- No instruction changes the captured variables. -/
theorem Surroundings.captured_next (around : Surroundings) (ins : Instruction)
    (rest : List Instruction) :
    (around.next ins rest).scope.captured = around.scope.captured := by
  unfold next
  split
  · rfl
  · split
    · rfl
    · cases around.scope.localIndexAt? _ _ with
      | none => rfl
      | some index => exact captured_register around index

/-- Each read of a global in the code of a function is one of its accesses. -/
theorem Surroundings.exists_access_reads {around : Surroundings} {code : List Instruction}
    {ins : Instruction} {name : String} (hins : ins ∈ code)
    (h : around.scope.globalRead? ins = some name) :
    ∃ access ∈ around.accesses code, access.reads name := by
  -- The surroundings change on the way, but the captured variables, which tell a read, do not.
  induction code generalizing around with
  | nil => exact absurd hins List.not_mem_nil
  | cons first rest ih =>
      rw [accesses]
      rcases List.mem_cons.mp hins with rfl | hlater
      · exact ⟨_, List.mem_cons_self, reads_of_globalRead? h rest⟩
      · have hnext : (around.next first rest).scope.globalRead? ins = some name := by
          rw [globalRead?_congr (around.captured_next first rest)]
          exact h
        obtain ⟨access, hmem, hreads⟩ := ih hlater hnext
        exact ⟨access, List.mem_cons_of_mem _ hmem, hreads⟩

/-! ## Accesses and their references -/

/-- The reference of a read has the root of the name, completed or not. -/
theorem Access.root_reference (read : Access) (name : String) (completion? : Option Access) :
    (read.reference name completion?).root = Text.root name := by
  unfold Access.reference
  split
  · exact Text.root_member name _
  · rfl

/-- An access that reads a name makes a reference with its root. -/
theorem Access.reads.exists_referenceAt? {access : Access} {name : String}
    (h : access.reads name) (earlier later : List Access) :
    ∃ ref ∈ referenceAt? earlier access later, ref.root = Text.root name := by
  unfold referenceAt?
  rcases h with hread | ⟨hrequire, rfl⟩
  · rw [hread]
    exact ⟨_, rfl, root_reference access name _⟩
  · rw [hrequire]
    exact ⟨_, rfl, root_reference access "require" none⟩

/-- The reference of an access is one of those of the function. -/
theorem exists_mem_referencesAfter {accesses : List Access} {access : Access} {name : String}
    (hmem : access ∈ accesses) (h : access.reads name) (earlier : List Access) :
    ∃ ref ∈ referencesAfter earlier accesses, ref.root = Text.root name := by
  induction accesses generalizing earlier with
  | nil => exact absurd hmem List.not_mem_nil
  | cons first later ih =>
      rw [referencesAfter]
      rcases List.mem_cons.mp hmem with rfl | hlater
      · obtain ⟨ref, href, hroot⟩ := h.exists_referenceAt? earlier later
        exact ⟨ref, List.mem_append_left _ (Option.mem_toList.mpr href), hroot⟩
      · obtain ⟨ref, href, hroot⟩ := ih hlater (earlier ++ [first])
        exact ⟨ref, List.mem_append_right _ href, hroot⟩

/-- The references of a function are among those of its unit. -/
theorem exists_mem_functionReferences {functions : List FunctionListing}
    {listing : FunctionListing} {ins : Instruction} {name : String} (hlisting : listing ∈ functions)
    (hins : ins ∈ listing.instructions) (h : listing.scope.globalRead? ins = some name)
    (known : KnownLocals) :
    ∃ ref ∈ functionReferences known functions, ref.root = Text.root name := by
  induction functions generalizing known with
  | nil => exact absurd hlisting List.not_mem_nil
  | cons first rest ih =>
      rw [functionReferences]
      rcases List.mem_cons.mp hlisting with rfl | hlater
      · have hread : (Surroundings.mk known listing.scope).scope.globalRead? ins = some name := h
        obtain ⟨access, haccess, hreads⟩ := Surroundings.exists_access_reads hins hread
        obtain ⟨ref, href, hroot⟩ := exists_mem_referencesAfter haccess hreads []
        exact ⟨ref, List.mem_append_left _ href, hroot⟩
      · obtain ⟨ref, href, hroot⟩ := ih hlater _
        exact ⟨ref, List.mem_append_right _ href, hroot⟩

/-- What the returned local makes known does not change which globals are read. -/
theorem globalRoots_prepare (functions : List FunctionListing) :
    globalRoots (prepare functions).2 = globalRoots functions := by
  cases functions with
  | nil => rfl
  | cons main rest =>
      dsimp only [prepare]
      cases main.returnedLocal? with
      | none => rfl
      | some index =>
          have hreads := globalRead?_congr
            (Surroundings.captured_register ⟨.empty, main.scope⟩ index)
          simp only [globalRoots, List.flatMap_cons, hreads]

/-- **Every read of a global is reported**, under its root. -/
theorem exists_reference_of_mem_globalRoots {functions : List FunctionListing} {root : String}
    (h : root ∈ globalRoots functions) :
    ∃ ref ∈ (resolveFunctions functions).report.references, ref.root = root := by
  rw [references_resolveFunctions]
  rw [← globalRoots_prepare] at h
  obtain ⟨listing, hlisting, ins, hins, name, hread, rfl⟩ := mem_globalRoots.mp h
  exact exists_mem_functionReferences hlisting hins hread _

end LuaGlobals
