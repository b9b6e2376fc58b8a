import LuaGlobals.Proofs.Reference.TwoPass

/-! # What later functions leave alone

A walk over a function adds to what the functions before it gave, and changes none of it. The
references are said in `references_walk`; here are the requirements, the remark on the module and the
known locals.

* **`records_advance`** says what a step does to the requirements and to the remark.
* `Surroundings.next_cases` says which local a step makes known.
* `functionRequirements` are the requirements of functions one after the other, without a state.
* **`resolveFunctions_append`**: the functions of a longer listing leave the findings on the first
  ones as they are, and the remark is one on the first function alone. -/

namespace LuaGlobals

/-! ## What an instruction records -/

namespace Surroundings

/-- The place of the local that receives the result of a call, unless the call discards it. -/
def receiverIndex? (around : Surroundings) (call : Instruction) : Option Nat :=
  if call.c = some 1 then none else around.scope.localIndexAt? call.a call.index

/-- The local that receives the result of a call. -/
def receiver? (around : Surroundings) (call : Instruction) : Option LocalSlot :=
  (around.receiverIndex? call).bind fun index => around.scope.locals[index]?

/-- The requirement that an instruction records. -/
def requirement? (around : Surroundings) (ins : Instruction) (rest : List Instruction) :
    Option Requirement :=
  (around.requires? ins rest).map fun (moduleName, call) =>
    { moduleName, line := ins.line, receiver := (around.receiver? call).map (·.name) }

/-- Whether an instruction reads the global `module`. -/
def declares (around : Surroundings) (ins : Instruction) : Bool :=
  ins.kind == .globalGet && ins.constant == some "module" && around.onEnvironment ins ins.b

/-- The requirements of the code of a function, in order. -/
def requirements (around : Surroundings) : List Instruction → List Requirement
  | [] => []
  | ins :: rest => (around.requirement? ins rest).toList ++ (around.next ins rest).requirements rest

end Surroundings

/-- The requirements of functions one after the other. Known locals stay known. -/
def functionRequirements (known : KnownLocals) : List FunctionListing → List Requirement
  | [] => []
  | listing :: rest =>
    let around : Surroundings := ⟨known, listing.scope⟩
    around.requirements listing.instructions
      ++ functionRequirements (around.after listing.instructions).known rest

namespace ResolverState

/-- **What a step records** beside references. -/
structure Records (state : ResolverState) (ins : Instruction) (rest : List Instruction)
    (after : ResolverState) : Prop where
  /-- The requirement of the instruction comes last. -/
  requirements : after.report.requirements
    = state.report.requirements ++ (state.surroundings.requirement? ins rest).toList
  /-- Only a read of `module` in the outermost function is remarked. -/
  remark : after.report.remark =
    if state.inOutermost && state.surroundings.declares ins then
      state.report.remark.declare ins rest
    else state.report.remark
  /-- A step does not leave its function. -/
  inOutermost : after.inOutermost = state.inOutermost

/-- Between two states nothing is recorded. -/
structure SameRecords (before after : ResolverState) : Prop where
  /-- The requirements are the same. -/
  requirements : after.report.requirements = before.report.requirements
  /-- The remark is the same. -/
  remark : after.report.remark = before.report.remark
  /-- Both are in the outermost function, or none is. -/
  inOutermost : after.inOutermost = before.inOutermost

section Kinds

variable {state after : ResolverState} {ins : Instruction} {rest : List Instruction}

/-- A step that records nothing is right where nothing is to be recorded. -/
theorem Records.of_same (hrequires : state.surroundings.requires? ins rest = none)
    (hdeclares : (state.inOutermost && state.surroundings.declares ins) = false)
    (hsame : state.SameRecords after) : state.Records ins rest after where
  requirements := by
    rw [hsame.requirements, Surroundings.requirement?, hrequires]
    exact (List.append_nil _).symm
  remark := by rw [hsame.remark, hdeclares, if_neg Bool.false_ne_true]
  inOutermost := hsame.inOutermost

/-- Only a global read records anything. -/
theorem Records.of_kind (hkind : ins.kind ≠ .globalGet) (hsame : state.SameRecords after) :
    state.Records ins rest after := by
  have hdeclares : state.surroundings.declares ins = false := by
    simp [Surroundings.declares, hkind]
  exact .of_same (requires?_of_kind hkind) (by rw [hdeclares, Bool.and_false]) hsame

/-- A write records nothing. -/
theorem sameRecords_globalSet : state.SameRecords (state.globalSet ins) := by
  unfold globalSet
  split <;> exact ⟨rfl, rfl, rfl⟩

/-- A field access records nothing, whether it completes a read or not. -/
theorem sameRecords_fieldAccess : state.SameRecords (state.fieldAccess ins) := by
  unfold fieldAccess complete
  split
  · exact ⟨rfl, rfl, rfl⟩
  · dsimp only
    split
    · exact ⟨rfl, rfl, rfl⟩
    · split
      · split <;> exact ⟨rfl, rfl, rfl⟩
      · exact ⟨rfl, rfl, rfl⟩

/-- The load of a captured variable records nothing. -/
theorem sameRecords_upvalueGet : state.SameRecords (state.upvalueGet ins) := by
  unfold upvalueGet
  dsimp only
  split
  · split <;> exact ⟨rfl, rfl, rfl⟩
  · exact ⟨rfl, rfl, rfl⟩

/-- Registering a local finds nothing and leaves no function. -/
theorem registerLocal_frame (state : ResolverState) (index : Nat) :
    (state.registerLocal index).report = state.report
      ∧ (state.registerLocal index).inOutermost = state.inOutermost := by
  unfold registerLocal
  split <;> exact ⟨rfl, rfl⟩

/-- Recording a requirement adds it to the others, and remarks nothing. -/
theorem require_frame (state : ResolverState) (ins call : Instruction) (moduleName : String) :
    let after := state.require ins moduleName call
    after.report.requirements = state.report.requirements ++
        [{ moduleName, line := ins.line
           receiver := (state.surroundings.receiver? call).map (·.name) }]
      ∧ after.report.remark = state.report.remark ∧ after.inOutermost = state.inOutermost := by
  have hindex : (if call.c = some 1 then none
      else state.scope.localIndexAt? call.a call.index)
        = state.surroundings.receiverIndex? call := rfl
  unfold require Surroundings.receiver?
  dsimp only
  rw [hindex]
  cases state.surroundings.receiverIndex? call with
  | none => exact ⟨rfl, rfl, rfl⟩
  | some index =>
      dsimp only
      obtain ⟨hreport, hinOutermost⟩ := state.registerLocal_frame index
      rw [hreport]
      exact ⟨rfl, rfl, hinOutermost⟩

/-- The step at a read of a field of the environment or of a captured table. -/
theorem records_globalGet (hkind : ins.kind = .globalGet) :
    state.Records ins rest (state.globalGet ins rest).1 := by
  unfold globalGet
  rw [owner_eq]
  cases hconstant : ins.constant with
  | none =>
      have hrequires : state.surroundings.requires? ins rest = none := by
        rw [Surroundings.requires?, if_neg (by simp [hconstant])]
      have hdeclares : state.surroundings.declares ins = false := by
        simp [Surroundings.declares, hconstant]
      exact .of_same hrequires (by rw [hdeclares, Bool.and_false]) ⟨rfl, rfl, rfl⟩
  | some name =>
      cases henv : state.surroundings.onEnvironment ins ins.b with
      | false =>
          have hrequires : state.surroundings.requires? ins rest = none := by
            rw [Surroundings.requires?, if_neg (by simp [henv])]
          have hdeclares : (state.inOutermost && state.surroundings.declares ins) = false := by
            simp [Surroundings.declares, henv]
          rw [if_neg (by simp)]
          cases (state.surroundings.tableName? ins ins.b).filter state.known.contains with
          | none => exact .of_same hrequires hdeclares ⟨rfl, rfl, rfl⟩
          | some table => exact .of_same hrequires hdeclares ⟨rfl, rfl, rfl⟩
      | true =>
          have hrequires : state.surroundings.requires? ins rest
              = if name = "require" then requireCall? ins rest else none := by
            simp [Surroundings.requires?, hkind, hconstant, henv]
          have hdeclares : state.surroundings.declares ins = (name == "module") := by
            simp [Surroundings.declares, hkind, hconstant, henv]
          -- Only here an idiom may follow, and the read itself records nothing of it.
          rw [if_pos rfl]
          dsimp only
          by_cases hname : name = "require"
          · rw [if_pos hname] at hrequires ⊢
            have hnone : state.surroundings.declares ins = false := by rw [hdeclares, hname]; rfl
            cases hcall : requireCall? ins rest with
            | none =>
                exact .of_same (hrequires.trans hcall) (by rw [hnone, Bool.and_false])
                  ⟨rfl, rfl, rfl⟩
            | some found =>
                obtain ⟨moduleName, call⟩ := found
                obtain ⟨hrequirements, hremark, hinOutermost⟩ :=
                  require_frame (state.addPendingRead ins name) ins call moduleName
                exact {
                  requirements := by
                    rw [Surroundings.requirement?, hrequires, hcall]
                    exact hrequirements
                  remark := by
                    rw [hnone, Bool.and_false, if_neg Bool.false_ne_true]
                    exact hremark
                  inOutermost := hinOutermost }
          · rw [if_neg hname] at hrequires ⊢
            by_cases hmodule : name = "module" ∧ (state.addPendingRead ins name).inOutermost
            · have hdeclared : (state.inOutermost && state.surroundings.declares ins) = true := by
                rw [hdeclares, hmodule.1]
                exact (Bool.and_true _).trans hmodule.2
              rw [if_pos hmodule]
              exact {
                requirements := by
                  rw [Surroundings.requirement?, hrequires]
                  exact (List.append_nil _).symm
                remark := by rw [if_pos hdeclared]; rfl
                inOutermost := rfl }
            · rw [if_neg hmodule]
              refine .of_same hrequires ?_ ⟨rfl, rfl, rfl⟩
              rw [hdeclares, ← Bool.not_eq_true, Bool.and_eq_true, beq_iff_eq]
              exact fun h => hmodule ⟨h.2, h.1⟩

/-- **Every step records its instruction.** -/
theorem records_advance (state : ResolverState) (ins : Instruction) (rest : List Instruction) :
    state.Records ins rest (state.advance ins rest) := by
  unfold advance step
  cases hkind : ins.kind with
  | globalGet => exact records_globalGet hkind
  | globalSet => exact .of_kind (by simp [hkind]) sameRecords_globalSet
  | tableGet | tableSet => exact .of_kind (by simp [hkind]) sameRecords_fieldAccess
  | upvalueGet => exact .of_kind (by simp [hkind]) sameRecords_upvalueGet
  | loadConstant | call | ret | retNone | other =>
      exact .of_kind (by simp [hkind]) ⟨rfl, rfl, rfl⟩

end Kinds

/-! ## What a walk records -/

/-- **A walk over code** adds its requirements. -/
theorem requirements_walkCode (state : ResolverState) (code : List Instruction) :
    (state.walkCode 0 code).report.requirements
      = state.report.requirements ++ state.surroundings.requirements code := by
  induction code generalizing state with
  | nil => exact (List.append_nil _).symm
  | cons ins rest ih =>
      rw [walkCode_cons, ih, (records_advance state ins rest).requirements, surroundings_advance,
        List.append_assoc]
      rfl

/-- Behind the outermost function nothing is remarked. -/
theorem remark_walkCode {state : ResolverState} (h : state.inOutermost = false)
    (code : List Instruction) :
    (state.walkCode 0 code).report.remark = state.report.remark := by
  induction code generalizing state with
  | nil => rfl
  | cons ins rest ih =>
      have hstep := records_advance state ins rest
      rw [walkCode_cons, ih (hstep.inOutermost.trans h), hstep.remark, h, Bool.false_and,
        if_neg Bool.false_ne_true]

/-- **A walk over several functions** adds the requirements of one after the other. -/
theorem requirements_foldl_walk (functions : List FunctionListing) (state : ResolverState) :
    (functions.foldl walk state).report.requirements
      = state.report.requirements ++ functionRequirements state.known functions := by
  induction functions generalizing state with
  | nil => exact (List.append_nil _).symm
  | cons listing rest ih =>
      have hwalk : (state.walk listing).report.requirements = state.report.requirements
          ++ Surroundings.requirements ⟨state.known, listing.scope⟩ listing.instructions :=
        (state.enter listing).requirements_walkCode listing.instructions
      rw [List.foldl_cons, ih, hwalk, known_walk, List.append_assoc]
      rfl

/-- Behind the outermost function no function is the outermost one. -/
theorem inOutermost_foldl_walk {state : ResolverState} (h : state.inOutermost = false)
    (functions : List FunctionListing) :
    (functions.foldl walk state).inOutermost = false := by
  induction functions generalizing state with
  | nil => exact h
  | cons listing rest ih => exact ih rfl

/-- Functions behind the outermost one leave the remark as it is. -/
theorem remark_foldl_walk {state : ResolverState} (h : state.inOutermost = false)
    (functions : List FunctionListing) :
    (functions.foldl walk state).report.remark = state.report.remark := by
  induction functions generalizing state with
  | nil => rfl
  | cons listing rest ih =>
      have henter : (state.enter listing).inOutermost = false := h
      rw [List.foldl_cons, ih rfl]
      exact remark_walkCode henter listing.instructions

end ResolverState

/-! ## Locals that become known -/

namespace Surroundings

/-- **A step makes at most one local known**: the one that receives a required module. -/
theorem next_cases (around : Surroundings) (ins : Instruction) (rest : List Instruction) :
    (around.requirement? ins rest).bind (·.receiver) = none ∧ around.next ins rest = around
      ∨ ∃ index slot, around.scope.locals[index]? = some slot
        ∧ (around.requirement? ins rest).bind (·.receiver) = some slot.name
        ∧ around.next ins rest
          = ⟨around.known.register slot, around.scope.markKnown index⟩ := by
  unfold requirement? next receiver? receiverIndex?
  cases around.requires? ins rest with
  | none => exact .inl ⟨rfl, rfl⟩
  | some found =>
      obtain ⟨moduleName, call⟩ := found
      by_cases hdiscards : call.c = some 1
      · exact .inl (by simp [hdiscards])
      · cases hindex : around.scope.localIndexAt? call.a call.index with
        | none => exact .inl (by simp [hdiscards, hindex])
        | some index =>
            cases hslot : around.scope.locals[index]? with
            | none => exact .inl (by simp [hdiscards, hindex, hslot, register])
            | some slot =>
                exact .inr ⟨index, slot, hslot, by simp [hdiscards, hindex, hslot, register]⟩

/-- The known names stay in front. -/
theorem names_prefix_next (around : Surroundings) (ins : Instruction) (rest : List Instruction) :
    around.known.names <+: (around.next ins rest).known.names := by
  rcases around.next_cases ins rest with ⟨-, hnext⟩ | ⟨index, slot, -, -, hnext⟩
  · exact ⟨[], by rw [List.append_nil, hnext]⟩
  · rw [hnext, KnownLocals.names_register]
    split
    · exact List.prefix_rfl
    · exact List.prefix_append _ _

/-- The known names stay in front behind the code of a function. -/
theorem names_prefix_after (around : Surroundings) (code : List Instruction) :
    around.known.names <+: (around.after code).known.names := by
  induction code generalizing around with
  | nil => exact List.prefix_rfl
  | cons ins rest ih => exact (around.names_prefix_next ins rest).trans (ih _)

end Surroundings

/-- The known names stay in front behind several functions. -/
theorem ResolverState.names_prefix_foldl_walk (functions : List FunctionListing)
    (state : ResolverState) :
    state.known.names <+: (functions.foldl walk state).known.names := by
  induction functions generalizing state with
  | nil => exact List.prefix_rfl
  | cons listing rest ih =>
      have hwalk : state.known.names <+: (state.walk listing).known.names := by
        rw [known_walk]
        exact Surroundings.names_prefix_after ⟨state.known, listing.scope⟩ listing.instructions
      exact hwalk.trans (ih _)

/-! ## Longer listings -/

section

variable (main : FunctionListing) (functions further : List FunctionListing)

/-- A longer listing is resolved by walking on from what its first functions gave. -/
theorem resolveFunctions_append_eq_foldl :
    resolveFunctions (main :: functions ++ further)
      = further.foldl ResolverState.walk (resolveFunctions (main :: functions)) :=
  List.foldl_append (l := _ :: functions)

/-- Behind all functions none is the outermost one. -/
theorem inOutermost_resolveFunctions :
    (resolveFunctions (main :: functions)).inOutermost = false :=
  ResolverState.inOutermost_foldl_walk rfl functions

end

/-- **Later functions leave alone what earlier ones gave.** The references, the requirements and the
known names of the first functions of a listing come first among those of the whole, and the other
functions add to them what they give with the locals known so far. The remark on the module is that
on the first functions, and depends on the very first alone. -/
theorem resolveFunctions_append (functions further : List FunctionListing) :
    let earlier := resolveFunctions functions
    let whole := resolveFunctions (functions ++ further)
    earlier.report.references <+: whole.report.references
      ∧ earlier.report.requirements <+: whole.report.requirements
      ∧ earlier.known.names <+: whole.known.names
      ∧ (functions ≠ [] →
        whole.report.references
            = earlier.report.references ++ functionReferences earlier.known further
          ∧ whole.report.requirements
            = earlier.report.requirements ++ functionRequirements earlier.known further
          ∧ whole.report.remark = earlier.report.remark)
      ∧ ∀ main rest,
        (resolveFunctions (main :: rest)).report.remark = (resolveFunctions [main]).report.remark := by
  intro earlier whole
  have hwhole (main : FunctionListing) (inner outer : List FunctionListing) :
      let first := resolveFunctions (main :: inner)
      let all := resolveFunctions (main :: inner ++ outer)
      all.report.references = first.report.references ++ functionReferences first.known outer
        ∧ all.report.requirements
          = first.report.requirements ++ functionRequirements first.known outer
        ∧ all.report.remark = first.report.remark
        ∧ first.known.names <+: all.known.names := by
    intro first all
    have hwalk : all = outer.foldl ResolverState.walk first :=
      resolveFunctions_append_eq_foldl main inner outer
    rw [hwalk]
    exact ⟨ResolverState.references_foldl_walk outer first,
      ResolverState.requirements_foldl_walk outer first,
      ResolverState.remark_foldl_walk (inOutermost_resolveFunctions main inner) outer,
      ResolverState.names_prefix_foldl_walk outer first⟩
  have hfirst (main : FunctionListing) (rest : List FunctionListing) :
      (resolveFunctions (main :: rest)).report.remark
        = (resolveFunctions [main]).report.remark :=
    (hwhole main [] rest).2.2.1
  cases functions with
  -- Without a function nothing was found, and there is no remark to keep.
  | nil =>
      exact ⟨List.nil_prefix, List.nil_prefix, List.nil_prefix, fun h => absurd rfl h, hfirst⟩
  | cons main inner =>
      obtain ⟨hreferences, hrequirements, hremark, hnames⟩ := hwhole main inner further
      exact ⟨⟨_, hreferences.symm⟩, ⟨_, hrequirements.symm⟩, hnames,
        fun _ => ⟨hreferences, hrequirements, hremark⟩, hfirst⟩

end LuaGlobals
