import LuaGlobals.Proofs.Listing.Partition
import LuaGlobals.Proofs.Reference.Frame
import LuaGlobals.Proofs.Reference.GlobalRead

/-! # Remarks on declared modules

A unit declares itself a module by calling the global `module`. The resolver makes its remark at
each read of that global in the outermost function, and looks ahead from the read for what is passed
to the call.

* `ModuleRead` is such a read with the instructions behind it; `moduleReads` are those of a unit.
* **`remark_resolveFunctions`**: the remark on a unit is made at one read after the other, and
  `foldl_addRead` says what comes of its parts.
* **`declared_iff_reads_module`**: which units are remarked to be declared.
* **`remark_describes_last_iff`**: from which reads the parts of a remark come, and when they all
  come from the last one. -/

namespace LuaGlobals

/-! ## Reads of `module` -/

/-- Whether an instruction reads the global `module`. A table without a name is the environment. -/
def FunctionScope.readsModule (scope : FunctionScope) (ins : Instruction) : Bool :=
  ins.kind == .globalGet && ins.constant == some "module"
    && (ins.opcode == "GETGLOBAL" || (scope.tableRead? ins).getD environmentName == environmentName)

/-- A read of the global `module`. -/
structure ModuleRead where
  /-- The instruction that reads. -/
  read : Instruction
  /-- The instructions behind it. -/
  behind : List Instruction
deriving DecidableEq, Repr

/-- The reads of the global `module` in the code of a function. -/
def FunctionScope.moduleReads (scope : FunctionScope) : List Instruction → List ModuleRead
  | [] => []
  | ins :: rest =>
    if scope.readsModule ins then ⟨ins, rest⟩ :: scope.moduleReads rest else scope.moduleReads rest

/-- The reads of the global `module` in the outermost function of a unit. -/
def moduleReads : List FunctionListing → List ModuleRead
  | [] => []
  | main :: _ => main.scope.moduleReads main.instructions

/-- A function reads the global `module`. -/
def FunctionListing.ReadsModule (listing : FunctionListing) : Prop :=
  ∃ read ∈ listing.instructions, listing.scope.readsModule read = true

/-- A function reads the global `module` into a register and later calls that register. -/
def FunctionListing.CallsModule (listing : FunctionListing) : Prop :=
  ∃ before read between call after,
    listing.instructions = before ++ read :: between ++ call :: after
      ∧ listing.scope.readsModule read = true ∧ call.kind = .call ∧ call.a = read.a

/-- A function that calls the global reads it. -/
theorem FunctionListing.CallsModule.readsModule {listing : FunctionListing}
    (h : listing.CallsModule) : listing.ReadsModule := by
  obtain ⟨before, read, between, call, after, hsplit, hreads, -⟩ := h
  exact ⟨read, by simp [hsplit], hreads⟩

namespace FunctionScope

/-- A function has reads of `module` if one of its instructions is such a read. -/
theorem moduleReads_ne_nil_iff (scope : FunctionScope) (code : List Instruction) :
    scope.moduleReads code ≠ [] ↔ ∃ read ∈ code, scope.readsModule read = true := by
  induction code with
  | nil => simp [moduleReads]
  | cons ins rest ih =>
      rw [moduleReads]
      by_cases hreads : scope.readsModule ins = true
      · simp [hreads]
      · simp [hreads, ih]

/-- Which instructions read `module` depends on the captured variables alone. -/
theorem moduleReads_congr {scope other : FunctionScope} (h : scope.captured = other.captured)
    (code : List Instruction) : scope.moduleReads code = other.moduleReads code := by
  have hreads (ins : Instruction) : scope.readsModule ins = other.readsModule ins := by
    unfold readsModule tableRead? capturedAt?
    rw [h]
  induction code with
  | nil => rfl
  | cons ins rest ih => rw [moduleReads, moduleReads, hreads, ih]

end FunctionScope

/-- The resolver takes the reads of `module` for declarations. -/
theorem Surroundings.declares_eq (around : Surroundings) (ins : Instruction) :
    around.declares ins = around.scope.readsModule ins := by
  have htable : around.tableName? ins ins.b = around.scope.tableRead? ins := rfl
  unfold declares FunctionScope.readsModule onEnvironment
  rw [htable]
  by_cases hset : ins.opcode = "SETGLOBAL"
  · -- A write is no read, whatever table it writes to.
    have hkind : ins.kind = .globalSet := by rw [Instruction.kind, hset]; rfl
    rw [hkind]
    rfl
  · have hfalse : (ins.opcode == "SETGLOBAL") = false := by simpa using hset
    rw [hfalse, Bool.or_false]

/-! ## What is passed to the call -/

/-- Two instructions that read the field `seeall` of the global `package`. -/
structure ReadsSeeall (package field : Instruction) : Prop where
  /-- The first reads a global. -/
  global : package.kind = .globalGet
  /-- The global is `package`. -/
  name : package.constant = some "package"
  /-- The second reads a field. -/
  fieldRead : field.kind = .tableGet
  /-- The field is `seeall`. -/
  key : field.constant = some "seeall"

namespace ModuleRead

/-- The field `package.seeall` is read before the function is called. -/
def PassesSeeall (found : ModuleRead) : Prop :=
  ∃ before package field after, found.behind = before ++ package :: field :: after
    ∧ (∀ ins ∈ before, ¬ (ins.kind = .call ∧ ins.a = found.read.a)) ∧ ReadsSeeall package field

/-- The constant that is loaded right behind the read, if one is loaded there. It has no text if it
is no string. -/
def loaded? (found : ModuleRead) : Option (Option String) :=
  (found.behind.head?.filter (·.kind == .loadConstant)).map (·.constant)

end ModuleRead

/-- The look ahead ends at the call on the register, and tries each instruction with the one before
it. -/
theorem readsSeeall_cons_iff {register : Option Int} {previous : Option Instruction}
    {ins : Instruction} {rest : List Instruction} :
    readsSeeall register previous (ins :: rest) = true ↔
      ¬ (ins.kind = .call ∧ ins.a = register)
        ∧ ((∃ package ∈ previous, ReadsSeeall package ins)
          ∨ readsSeeall register (some ins) rest = true) := by
  have hreads (package : Instruction) :
      (package.kind == .globalGet && package.constant == some "package"
        && ins.kind == .tableGet && ins.constant == some "seeall") = true
        ↔ ReadsSeeall package ins := by
    simp only [Bool.and_eq_true, beq_iff_eq]
    exact ⟨fun ⟨⟨⟨hglobal, hname⟩, hread⟩, hkey⟩ => ⟨hglobal, hname, hread, hkey⟩,
      fun h => ⟨⟨⟨h.global, h.name⟩, h.fieldRead⟩, h.key⟩⟩
  rw [readsSeeall.eq_def]
  by_cases hcall : ins.kind = .call ∧ ins.a = register
  · simp [hcall]
  · cases previous with
    | none => simp [hcall]
    | some package => simp [hcall, hreads]

/-- The look ahead finds a read of `package.seeall` before the call on the register, or one that the
previous instruction has begun. -/
theorem readsSeeall_eq_true_iff (register : Option Int) (previous : Option Instruction)
    (code : List Instruction) :
    readsSeeall register previous code = true ↔
      (∃ package ∈ previous, ∃ field after, code = field :: after ∧ ReadsSeeall package field)
        ∨ ∃ before package field after, code = before ++ package :: field :: after
          ∧ (∀ ins ∈ before, ¬ (ins.kind = .call ∧ ins.a = register))
          ∧ ReadsSeeall package field := by
  induction code generalizing previous with
  | nil => simp [readsSeeall]
  | cons ins rest ih =>
      rw [readsSeeall_cons_iff, ih]
      constructor
      · rintro ⟨hnocall, ⟨package, hpackage, hreads⟩
          | ⟨package, hins, field, after, rfl, hreads⟩
          | ⟨before, package, field, after, rfl, hbefore, hreads⟩⟩
        · exact .inl ⟨package, hpackage, ins, rest, rfl, hreads⟩
        · obtain rfl := Option.mem_some.mp hins
          exact .inr ⟨[], ins, field, after, rfl, List.forall_mem_nil _, hreads⟩
        · exact .inr ⟨ins :: before, package, field, after, rfl,
            List.forall_mem_cons.mpr ⟨hnocall, hbefore⟩, hreads⟩
      · rintro (⟨package, hpackage, field, after, hsplit, hreads⟩
          | ⟨before, package, field, after, hsplit, hbefore, hreads⟩)
        · obtain ⟨rfl, -⟩ := List.cons.inj hsplit
          exact ⟨fun hcall => by simp [hreads.fieldRead] at hcall, .inl ⟨package, hpackage, hreads⟩⟩
        · cases before with
          | nil =>
              obtain ⟨rfl, rfl⟩ := List.cons.inj hsplit
              -- The first half of the read is no call either.
              exact ⟨fun hcall => by simp [hreads.global] at hcall,
                .inr (.inl ⟨ins, rfl, field, after, rfl, hreads⟩)⟩
          | cons first before =>
              obtain ⟨rfl, rfl⟩ := List.cons.inj hsplit
              obtain ⟨hfirst, hbefore⟩ := List.forall_mem_cons.mp hbefore
              exact ⟨hfirst, .inr (.inr ⟨before, package, field, after, rfl, hbefore, hreads⟩)⟩

namespace ModuleRead

/-- The look ahead of the resolver finds what is passed. -/
theorem readsSeeall_iff (found : ModuleRead) :
    readsSeeall found.read.a none found.behind = true ↔ found.PassesSeeall := by
  rw [readsSeeall_eq_true_iff]
  simp [PassesSeeall]

instance (found : ModuleRead) : Decidable found.PassesSeeall :=
  decidable_of_iff _ found.readsSeeall_iff

end ModuleRead

/-! ## The remark on a unit -/

namespace ModuleRemark

/-- The remark after one more read of `module`. -/
def addRead (remark : ModuleRemark) (found : ModuleRead) : ModuleRemark :=
  remark.declare found.read found.behind

/-- One more read sets the line, and the name if a constant is loaded behind it; it can make the
remark strict. -/
theorem addRead_eq (remark : ModuleRemark) (found : ModuleRead) :
    remark.addRead found =
      { remark with
        declared := true
        line := found.read.line
        strict := remark.strict || decide found.PassesSeeall
        name := found.loaded?.getD remark.name } := by
  have hstrict : readsSeeall found.read.a none found.behind = decide found.PassesSeeall := by
    rw [Bool.eq_iff_iff, found.readsSeeall_iff, decide_eq_true_iff]
  unfold addRead declare ModuleRead.loaded?
  rw [hstrict]
  cases found.behind with
  | nil => rfl
  | cons load rest =>
      by_cases hload : load.kind = .loadConstant <;> simp [Option.filter_some, hload]

/-- **What comes of the parts of a remark**: the line is that of the last read, the name that of the
last read with a loaded constant behind it, and a remark that is strict stays strict. -/
theorem foldl_addRead (remark : ModuleRemark) (reads : List ModuleRead) :
    reads.foldl addRead remark =
      { remark with
        declared := remark.declared || !reads.isEmpty
        line := (reads.getLast?.map fun found => (found.read.line : Int)).getD remark.line
        strict := remark.strict || reads.any fun found => decide found.PassesSeeall
        name := (reads.filterMap (·.loaded?)).getLast?.getD remark.name } := by
  -- From the back, as the last read decides on the line and may decide on the name.
  induction reads using List.reverseRecOn with
  | nil => simp
  | append_singleton reads last ih =>
      rw [List.foldl_concat, ih, addRead_eq]
      cases hloaded : last.loaded? <;> simp [hloaded, Bool.or_assoc]

end ModuleRemark

namespace ResolverState

/-- **A walk over the outermost function** makes a remark at each read of `module`. -/
theorem remark_walkCode_outermost {state : ResolverState} (h : state.inOutermost = true)
    (code : List Instruction) :
    (state.walkCode 0 code).report.remark
      = (state.scope.moduleReads code).foldl ModuleRemark.addRead state.report.remark := by
  -- Locals become known on the way, but the captured variables, which tell a read, stay.
  induction code generalizing state with
  | nil => rfl
  | cons ins rest ih =>
      have hstep := records_advance state ins rest
      have hcaptured : (state.advance ins rest).scope.captured = state.scope.captured :=
        calc (state.advance ins rest).scope.captured
            = (state.surroundings.next ins rest).scope.captured :=
              congrArg (·.scope.captured) (surroundings_advance state ins rest)
          _ = state.scope.captured := state.surroundings.captured_next ins rest
      have hdeclares : state.surroundings.declares ins = state.scope.readsModule ins :=
        state.surroundings.declares_eq ins
      rw [walkCode_cons, ih (hstep.inOutermost.trans h), hstep.remark, h, hdeclares,
        FunctionScope.moduleReads_congr hcaptured, FunctionScope.moduleReads, Bool.true_and]
      split <;> rfl

end ResolverState

/-- The remark before the walk over a unit tells at most the local that the main chunk returns. -/
theorem preparedState_remark (functions : List FunctionListing) :
    (∃ returned?, (preparedState functions).report.remark
        = { ModuleRemark.absent with simpleModule := returned? })
      ∧ (preparedState functions).inOutermost = true := by
  cases functions with
  | nil => exact ⟨⟨none, rfl⟩, rfl⟩
  | cons main rest =>
      dsimp only [preparedState, ResolverState.detectSimpleModule]
      cases main.returnedLocal? with
      | none => exact ⟨⟨none, rfl⟩, rfl⟩
      | some index =>
          dsimp only
          cases main.scope.locals[index]? with
          | none => exact ⟨⟨none, rfl⟩, rfl⟩
          | some slot => exact ⟨⟨some slot.name, rfl⟩, rfl⟩

/-- Making the returned local known keeps the reads of `module`. -/
theorem moduleReads_prepare (functions : List FunctionListing) :
    moduleReads (prepare functions).2 = moduleReads functions := by
  cases functions with
  | nil => rfl
  | cons main rest =>
      dsimp only [prepare]
      cases main.returnedLocal? with
      | none => rfl
      | some index =>
          exact FunctionScope.moduleReads_congr
            (Surroundings.captured_register ⟨.empty, main.scope⟩ index) main.instructions

/-- **The remark on a unit** is made at the reads of `module` in its outermost function, one after
the other. -/
theorem remark_resolveFunctions (functions : List FunctionListing) :
    ∃ returned?, (resolveFunctions functions).report.remark
      = (moduleReads functions).foldl ModuleRemark.addRead
          { ModuleRemark.absent with simpleModule := returned? } := by
  obtain ⟨⟨returned?, hremark⟩, houtermost⟩ := preparedState_remark functions
  refine ⟨returned?, ?_⟩
  rw [resolveFunctions_eq_foldl, ← moduleReads_prepare, ← hremark]
  cases (prepare functions).2 with
  | nil => rfl
  | cons main rest =>
      have hentered : ((preparedState functions).enter main).inOutermost = true := houtermost
      -- The functions behind the first one make no remark.
      rw [List.foldl_cons, ResolverState.remark_foldl_walk rfl]
      exact ResolverState.remark_walkCode_outermost hentered main.instructions

/-! ## Which units are declared -/

/-- A unit reads `module` if its outermost function does. -/
theorem moduleReads_ne_nil_iff (functions : List FunctionListing) :
    moduleReads functions ≠ [] ↔ ∃ main ∈ functions.head?, main.ReadsModule := by
  cases functions with
  | nil => simp [moduleReads]
  | cons main rest =>
      rw [moduleReads, FunctionScope.moduleReads_ne_nil_iff]
      simp [FunctionListing.ReadsModule]

/-- **A unit is remarked to be declared as soon as it reads `module`**, whether it calls it or not:

* it is declared exactly if its outermost function reads the global, so it is if the function calls
  the global;
* its environment counts as replaced exactly if, besides, none of the reads has a read of
  `package.seeall` behind it, before the call;
* so all declared units call the global exactly among those whose outermost function does not merely
  read it. -/
theorem declared_iff_reads_module (functions : List FunctionListing) :
    let remark := (resolveFunctions functions).report.remark
    (remark.declared = true ↔ ∃ main ∈ functions.head?, main.ReadsModule)
      ∧ ((∃ main ∈ functions.head?, main.CallsModule) → remark.declared = true)
      ∧ (remark.isOpen = true ↔ (∃ main ∈ functions.head?, main.ReadsModule)
          ∧ ∀ found ∈ moduleReads functions, ¬ found.PassesSeeall)
      ∧ ((remark.declared = true → ∃ main ∈ functions.head?, main.CallsModule)
          ↔ ∀ main ∈ functions.head?, main.ReadsModule → main.CallsModule) := by
  intro remark
  obtain ⟨returned?, hremark⟩ := remark_resolveFunctions functions
  rw [ModuleRemark.foldl_addRead] at hremark
  have hdeclared : remark.declared = true ↔ ∃ main ∈ functions.head?, main.ReadsModule := by
    rw [← moduleReads_ne_nil_iff]
    simp [remark, hremark, ModuleRemark.absent]
  refine ⟨hdeclared, ?_, ?_, ?_, ?_⟩
  · rintro ⟨main, hmain, hcalls⟩
    exact hdeclared.mpr ⟨main, hmain, hcalls.readsModule⟩
  · rw [ModuleRemark.isOpen, Bool.and_eq_true, hdeclared]
    refine and_congr_right fun _ => ?_
    simp [remark, hremark, ModuleRemark.absent]
  · intro hcalls main hmain hreads
    obtain ⟨other, hother, hcalled⟩ := hcalls (hdeclared.mpr ⟨main, hmain, hreads⟩)
    -- A unit has one outermost function.
    obtain rfl := Option.mem_unique hmain hother
    exact hcalled
  · intro hcalls hremarked
    obtain ⟨main, hmain, hreads⟩ := hdeclared.mp hremarked
    exact ⟨main, hmain, hcalls main hmain hreads⟩

/-- A listing that stores the global `module` in a local, and calls nothing. -/
def storedListing : String :=
  "main <u.lua:0,0>
0 params,
1 [1] GETGLOBAL 0 -1 ; module
2 [1] RETURN 0 1
locals (1)
0 m 2 2
"

/-- The one function of that listing. -/
def storedMain : FunctionListing :=
  { kind := .main
    source := "u.lua"
    lineDefined := 0
    instructions := [
      ⟨1, 1, "GETGLOBAL", some 0, some (-1), none, some "module", none⟩,
      ⟨2, 1, "RETURN", some 0, some 1, none, none, none⟩]
    scope := ⟨[⟨0, "m", 1, 2, false⟩], []⟩ }

/-- The unit is taken for an open module, although it does not call `module`. -/
theorem storedListing_declared_uncalled :
    ∃ report, analyzeListing storedListing = .ok report
      ∧ report.remark.declared = true ∧ report.remark.isOpen = true
      ∧ readFunctions (.ofText storedListing) = ([storedMain], none)
      ∧ ¬ storedMain.CallsModule := by
  have hread : readFunctions (.ofText storedListing) = ([storedMain], none) := by
    rw [storedListing, ofText_ofList]
    decide +kernel
  have hanalyze : analyzeListing storedListing = .ok (resolveFunctions [storedMain]).report := by
    rw [analyzeListing, resolveListing, hread]
    rfl
  have hreads : ∃ main ∈ [storedMain].head?, main.ReadsModule :=
    ⟨storedMain, rfl, _, List.mem_cons_self, by decide⟩
  have hnocall : ∀ ins ∈ storedMain.instructions, ins.kind ≠ .call := by decide
  obtain ⟨hdeclared, -, hopen, -⟩ := declared_iff_reads_module [storedMain]
  refine ⟨_, hanalyze, hdeclared.mpr hreads, hopen.mpr ⟨hreads, by decide⟩, hread, ?_⟩
  rintro ⟨before, read, between, call, after, hsplit, -, hcall, -⟩
  exact hnocall call (by rw [hsplit]; simp) hcall

/-! ## Where the parts of a remark come from -/

/-- The line, the name and the mode of a remark are those of one read: the line of the read, the
constant loaded behind it as the first argument, and whether it passes `package.seeall`. -/
structure ModuleRemark.Describes (remark : ModuleRemark) (found : ModuleRead) : Prop where
  /-- The line is that of the read. -/
  line : remark.line = found.read.line
  /-- The name is the constant behind it. -/
  name : remark.name = found.loaded?.join
  /-- The remark is strict if the read passes the option. -/
  strict : remark.strict = true ↔ found.PassesSeeall

/-- **The parts of a remark come from different reads of `module`.** For every unit:

* the line is that of the last read;
* the name is the constant behind the last read that has a loaded constant behind it;
* the remark is strict if some read passes `package.seeall`;
* so the remark describes the last read exactly if that read passes `package.seeall` in case an
  earlier one does, and has a loaded constant behind it in case an earlier one gave a name. -/
theorem remark_describes_last_iff (functions : List FunctionListing) :
    let remark := (resolveFunctions functions).report.remark
    let reads := moduleReads functions
    remark.line = (reads.getLast?.map fun found => (found.read.line : Int)).getD 0
      ∧ remark.name = (reads.filterMap (·.loaded?)).getLast?.join
      ∧ (remark.strict = true ↔ ∃ found ∈ reads, found.PassesSeeall)
      ∧ ∀ earlier last, reads = earlier ++ [last] →
          (remark.Describes last ↔
            ((∃ found ∈ earlier, found.PassesSeeall) → last.PassesSeeall)
              ∧ (last.loaded? = none → (earlier.filterMap (·.loaded?)).getLast?.join = none)) := by
  intro remark reads
  obtain ⟨returned?, hremark⟩ := remark_resolveFunctions functions
  change remark = reads.foldl _ _ at hremark
  rw [ModuleRemark.foldl_addRead] at hremark
  have hline : remark.line = (reads.getLast?.map fun found => (found.read.line : Int)).getD 0 := by
    simp [hremark, ModuleRemark.absent]
  have hname : remark.name = (reads.filterMap (·.loaded?)).getLast?.join := by
    rw [hremark]
    cases (reads.filterMap (·.loaded?)).getLast? <;> rfl
  have hstrict : remark.strict = true ↔ ∃ found ∈ reads, found.PassesSeeall := by
    simp [hremark, ModuleRemark.absent]
  refine ⟨hline, hname, hstrict, fun earlier last hreads => ?_⟩
  rw [hreads, List.getLast?_concat] at hline
  -- The line is that of the last read anyway; name and mode are compared with those before it.
  have hlastName : remark.name = last.loaded?.join ↔
      (last.loaded? = none → (earlier.filterMap (·.loaded?)).getLast?.join = none) := by
    rw [hname, hreads]
    cases hloaded : last.loaded? <;> simp [hloaded]
  have hlastStrict : (remark.strict = true ↔ last.PassesSeeall) ↔
      ((∃ found ∈ earlier, found.PassesSeeall) → last.PassesSeeall) := by
    rw [hstrict, hreads]
    simp only [List.mem_append, List.mem_singleton, or_and_right, exists_or, exists_eq_left]
    exact ⟨fun h hearlier => h.mp (.inl hearlier), fun h => ⟨fun hsome => hsome.elim h id, .inr⟩⟩
  rw [← hlastStrict, ← hlastName]
  exact ⟨fun h => ⟨h.strict, h.name⟩, fun ⟨hstrict, hname⟩ => ⟨hline, hname, hstrict⟩⟩

/-- A listing that calls `module` with a name and `package.seeall`, and on the next line with
whatever it is given. -/
def repeatedListing : String :=
  "main <u.lua:0,0>
0+ params,
1 [1] GETGLOBAL 0 -1 ; module
2 [1] LOADK 1 -2 ; \"a\"
3 [1] GETGLOBAL 2 -3 ; package
4 [1] GETTABLE 2 2 -4 ; \"seeall\"
5 [1] CALL 0 3 1
6 [2] GETGLOBAL 0 -1 ; module
7 [2] VARARG 1 0
8 [2] CALL 0 0 1
9 [2] RETURN 0 1
"

/-- The one function of that listing. -/
def repeatedMain : FunctionListing :=
  { kind := .main
    source := "u.lua"
    lineDefined := 0
    instructions := [
      ⟨1, 1, "GETGLOBAL", some 0, some (-1), none, some "module", none⟩,
      ⟨2, 1, "LOADK", some 1, some (-2), none, some "a", none⟩,
      ⟨3, 1, "GETGLOBAL", some 2, some (-3), none, some "package", none⟩,
      ⟨4, 1, "GETTABLE", some 2, some 2, some (-4), some "seeall", none⟩,
      ⟨5, 1, "CALL", some 0, some 3, some 1, none, none⟩,
      ⟨6, 2, "GETGLOBAL", some 0, some (-1), none, some "module", none⟩,
      ⟨7, 2, "VARARG", some 1, some 0, none, none, none⟩,
      ⟨8, 2, "CALL", some 0, some 0, some 1, none, none⟩,
      ⟨9, 2, "RETURN", some 0, some 1, none, none, none⟩]
    scope := ⟨[], []⟩ }

/-- The read for the call with a name and `package.seeall`. -/
def namedRead : ModuleRead :=
  ⟨repeatedMain.instructions[0], repeatedMain.instructions.drop 1⟩

/-- The read for the call behind it. -/
def givenRead : ModuleRead :=
  ⟨repeatedMain.instructions[5], repeatedMain.instructions.drop 6⟩

/-- The remark has the line of the second call, and the name and the mode of the first one. -/
theorem repeatedListing_mixes_calls :
    ∃ report, analyzeListing repeatedListing = .ok report
      ∧ report.remark.line = 2 ∧ report.remark.name = some "a" ∧ report.remark.strict = true
      ∧ readFunctions (.ofText repeatedListing) = ([repeatedMain], none)
      ∧ moduleReads [repeatedMain] = [namedRead, givenRead]
      ∧ namedRead.read.line = 1 ∧ namedRead.loaded? = some (some "a") ∧ namedRead.PassesSeeall
      ∧ givenRead.read.line = 2 ∧ givenRead.loaded? = none ∧ ¬ givenRead.PassesSeeall
      ∧ ¬ report.remark.Describes givenRead := by
  have hread : readFunctions (.ofText repeatedListing) = ([repeatedMain], none) := by
    rw [repeatedListing, ofText_ofList]
    decide +kernel
  have hanalyze : analyzeListing repeatedListing
      = .ok (resolveFunctions [repeatedMain]).report := by
    rw [analyzeListing, resolveListing, hread]
    rfl
  have hreads : moduleReads [repeatedMain] = [namedRead] ++ [givenRead] := by decide
  have hpasses : namedRead.PassesSeeall := by decide
  have hnotPasses : ¬ givenRead.PassesSeeall := by decide
  obtain ⟨hline, hname, hstrict, hdescribes⟩ := remark_describes_last_iff [repeatedMain]
  refine ⟨_, hanalyze, hline, hname, hstrict.mpr ⟨namedRead, by simp [hreads], hpasses⟩, hread,
    hreads, rfl, rfl, hpasses, rfl, rfl, hnotPasses, fun hlast => ?_⟩
  -- The second call would have to pass the option, since the first one does.
  exact hnotPasses (((hdescribes [namedRead] givenRead hreads).mp hlast).1
    ⟨namedRead, List.mem_singleton_self _, hpasses⟩)

end LuaGlobals
