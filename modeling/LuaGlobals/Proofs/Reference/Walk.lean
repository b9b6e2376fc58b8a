import LuaGlobals.Proofs.Reference.Access

/-! # Single steps of the resolver

What one step of `ResolverState.walkCode` does, said once through `Surroundings.classify`; nothing
later unfolds the step again.

* **`walkCode_cons`**: the instructions that a step uses up would have changed nothing, so a walk
  is the plain iteration of `ResolverState.advance`.
* **`references_advance`**, **`pending_advance`** and **`surroundings_advance`** say what a step does
  to the references, to the pending read and to the known locals. -/

namespace LuaGlobals

namespace ResolverState

/-- The variables in sight and the known locals of a state. -/
def surroundings (state : ResolverState) : Surroundings :=
  ⟨state.known, state.scope⟩

/-- The state after one instruction. -/
def advance (state : ResolverState) (ins : Instruction) (rest : List Instruction) :
    ResolverState :=
  (state.step ins rest).1

end ResolverState

/-! ## The call of `require` -/

/-- The call of `require` starts with a loaded constant and a call. -/
theorem requireCall?_eq_some {ins call : Instruction} {rest : List Instruction} {name : String}
    (h : requireCall? ins rest = some (name, call)) :
    ∃ load later, rest = load :: call :: later ∧ load.kind = .loadConstant
      ∧ load.constant = some name ∧ call.kind = .call ∧ call.a = ins.a := by
  unfold requireCall? at h
  split at h
  · rename_i load other later
    split at h
    · rename_i constant hconstant
      split at h
      · rename_i hshape
        obtain ⟨hload, -, hcall, ha⟩ := hshape
        rw [Option.some.injEq, Prod.mk.injEq] at h
        obtain ⟨rfl, rfl⟩ := h
        exact ⟨load, later, rfl, hload, hconstant, hcall, ha⟩
      · exact absurd h (by simp)
    · exact absurd h (by simp)
  · exact absurd h (by simp)

/-! ## Owners of tables -/

/-- The owner of a table, in terms of what the surroundings say about it. -/
theorem ResolverState.owner_eq (state : ResolverState) (ins : Instruction)
    (upvalue : Option Int) :
    state.owner ins upvalue =
      if state.surroundings.onEnvironment ins upvalue then .environment
      else (((state.surroundings.tableName? ins upvalue).filter state.known.contains).map
        TableOwner.captured).getD .foreign := by
  unfold owner Surroundings.onEnvironment Surroundings.tableName? surroundings
  by_cases hglobal : ins.opcode = "GETGLOBAL" ∨ ins.opcode = "SETGLOBAL"
  · rw [if_pos hglobal, if_pos]
    rcases hglobal with h | h <;> simp [h]
  · rw [if_neg hglobal]
    rw [not_or] at hglobal
    cases state.scope.capturedAt? upvalue with
    | some captured =>
        by_cases henv : captured.name = environmentName
        · simp [henv]
        · by_cases hknown : state.known.contains captured.name <;>
            simp [henv, hknown, hglobal, Option.filter]
    | none =>
        cases ins.upvalue with
        | none => simp
        | some table =>
            by_cases henv : table = environmentName
            · simp [henv]
            · by_cases hknown : state.known.contains table <;>
                simp [henv, hknown, hglobal, Option.filter]

/-- On the environment every field is named by itself. -/
theorem Surroundings.qualify?_of_onEnvironment {around : Surroundings} {ins : Instruction}
    {upvalue : Option Int} (h : around.onEnvironment ins upvalue = true) (field : String) :
    around.qualify? ins upvalue field = some field := by
  rw [qualify?, if_pos h]

/-- Beside the environment only the fields of captured modules have names. -/
theorem Surroundings.qualify?_of_not_onEnvironment {around : Surroundings} {ins : Instruction}
    {upvalue : Option Int} (h : around.onEnvironment ins upvalue = false) (field : String) :
    around.qualify? ins upvalue field =
      ((around.tableName? ins upvalue).filter around.known.contains).map
        (Text.member · field) := by
  rw [qualify?, if_neg (by simp [h])]

/-! ## What a step does -/

/-- A change to the list of references. -/
inductive ReferenceEdit where
  /-- The list stays as it is. -/
  | keep
  /-- A reference comes last. -/
  | add (ref : Reference)
  /-- The reference at a place is replaced. -/
  | rename (place : Nat) (ref : Reference)
deriving DecidableEq, Repr

/-- The references after a change. -/
def ReferenceEdit.apply (references : List Reference) : ReferenceEdit → List Reference
  | .keep => references
  | .add ref => references ++ [ref]
  | .rename place ref => references.set place ref

namespace ResolverState

/-- The pending read that an instruction leaves. -/
def pendingRead (ins : Instruction) (qualifier : String) (reference : Option Nat) : PendingRead :=
  { index := ins.index, line := ins.line, register := ins.a, qualifier, reference }

/-- What a step does to the references. -/
def edit (state : ResolverState) (ins : Instruction) (rest : List Instruction) : ReferenceEdit :=
  match state.surroundings.classify ins rest with
  | .read name => .add { line := ins.line, name, write := false }
  | .require => .add { line := ins.line, name := "require", write := false }
  | .assign name => .add { line := ins.line, name, write := true }
  | .load _ | .unrelated => .keep
  | .field key write holder? =>
    match state.completed? ins ins.tableRegister with
    | some pending =>
      let ref : Reference :=
        { line := pending.line, name := Text.member pending.qualifier key, write }
      (pending.reference.map (ReferenceEdit.rename · ref)).getD (.add ref)
    | none =>
      (holder?.map fun holder =>
        ReferenceEdit.add { line := ins.line, name := Text.member holder key, write }).getD .keep

/-- The read that is pending after a step. -/
def pendingAfter (state : ResolverState) (ins : Instruction) (rest : List Instruction) :
    Option PendingRead :=
  match state.surroundings.classify ins rest with
  | .read name => some (pendingRead ins name (some state.report.references.length))
  | .load name => some (pendingRead ins name none)
  | .require => none
  | .field _ _ _ =>
    if (state.completed? ins ins.tableRegister).isSome then none else state.pending
  | .assign _ | .unrelated => state.pending

/-- **What a step does**, all of it that later steps depend on. -/
structure Follows (state : ResolverState) (ins : Instruction) (rest : List Instruction)
    (after : ResolverState) : Prop where
  /-- The references change by the edit of the step. -/
  references : after.report.references = (state.edit ins rest).apply state.report.references
  /-- The pending read is the one that the step leaves. -/
  pending : after.pending = state.pendingAfter ins rest
  /-- The known locals are those behind the instruction. -/
  surroundings : after.surroundings = state.surroundings.next ins rest

namespace Follows

variable {state after : ResolverState} {ins : Instruction} {rest : List Instruction}

/-- A step that changes nothing follows an unrelated instruction. -/
theorem of_unrelated (hclass : state.surroundings.classify ins rest = .unrelated)
    (hrequires : state.surroundings.requires? ins rest = none) :
    state.Follows ins rest state where
  references := by rw [edit, hclass]; rfl
  pending := by rw [pendingAfter, hclass]
  surroundings := by rw [Surroundings.next, hrequires]

/-- A step that adds a read and leaves it pending follows such a read. -/
theorem of_read {name : String} (hclass : state.surroundings.classify ins rest = .read name)
    (hrequires : state.surroundings.requires? ins rest = none)
    (hreferences : after.report.references
      = (state.addPendingRead ins name).report.references)
    (hpending : after.pending = (state.addPendingRead ins name).pending)
    (hsurroundings : after.surroundings = state.surroundings) :
    state.Follows ins rest after where
  references := by rw [edit, hclass]; exact hreferences
  pending := by rw [pendingAfter, hclass]; exact hpending
  surroundings := by rw [Surroundings.next, hrequires]; exact hsurroundings

end Follows

/-- Registering a local in a state registers it in the surroundings. -/
theorem surroundings_registerLocal (state : ResolverState) (index : Nat) :
    (state.registerLocal index).surroundings = state.surroundings.register index := by
  unfold registerLocal Surroundings.register surroundings
  dsimp only
  cases state.scope.locals[index]? <;> rfl

/-- Recording a requirement adds no reference. -/
theorem references_require (state : ResolverState) (ins call : Instruction)
    (moduleName : String) :
    (state.require ins moduleName call).report.references = state.report.references := by
  unfold require registerLocal
  dsimp only
  split
  · split <;> rfl
  · rfl

/-- Recording a requirement makes the local known that receives the result of the call. -/
theorem surroundings_require (state : ResolverState) (ins call : Instruction)
    (moduleName : String) :
    (state.require ins moduleName call).surroundings =
      if call.c = some 1 then state.surroundings
      else ((state.surroundings.scope.localIndexAt? call.a call.index).map
        state.surroundings.register).getD state.surroundings := by
  unfold require
  by_cases hdiscards : call.c = some 1
  · simp only [hdiscards, if_true]; rfl
  · simp only [hdiscards, if_false]
    have hscope : state.surroundings.scope = state.scope := rfl
    rw [hscope]
    cases state.scope.localIndexAt? call.a call.index with
    | none => rfl
    | some index => exact surroundings_registerLocal state index

/-- Completing a read renames its reference, or adds one if it made none. -/
theorem references_complete (state : ResolverState) (pending : PendingRead) (key : String)
    (write : Bool) :
    (state.complete pending key write).report.references =
      ((pending.reference.map (ReferenceEdit.rename ·
        { line := pending.line, name := Text.member pending.qualifier key, write })).getD
          (.add { line := pending.line, name := Text.member pending.qualifier key, write })).apply
        state.report.references := by
  unfold complete
  cases pending.reference <;> rfl

/-! ### One kind of instruction after the other -/

section Kinds

variable {state : ResolverState} {ins : Instruction} {rest : List Instruction}

/-- Only a global read can start a call of `require`. -/
theorem requires?_of_kind (h : ins.kind ≠ .globalGet) :
    state.surroundings.requires? ins rest = none := by
  rw [Surroundings.requires?, if_neg]
  exact fun hall => h hall.1

/-- The step at a read of a field of the environment or of a captured table. -/
theorem follows_globalGet (hkind : ins.kind = .globalGet) :
    state.Follows ins rest (state.globalGet ins rest).1 := by
  have hclass : state.surroundings.classify ins rest =
      if (state.surroundings.requires? ins rest).isSome then .require
      else ((ins.constant.bind (state.surroundings.qualify? ins ins.b)).map .read).getD
        .unrelated := by
    rw [Surroundings.classify, hkind]
  unfold globalGet
  rw [owner_eq]
  cases hconstant : ins.constant with
  | none =>
      have hrequires : state.surroundings.requires? ins rest = none := by
        rw [Surroundings.requires?, if_neg (by simp [hconstant])]
      exact .of_unrelated (by rw [hclass, hrequires, hconstant]; rfl) hrequires
  | some name =>
      cases henv : state.surroundings.onEnvironment ins ins.b with
      | false =>
          have hrequires : state.surroundings.requires? ins rest = none := by
            rw [Surroundings.requires?, if_neg (by simp [henv])]
          rw [if_neg (by simp)]
          rw [hrequires, hconstant, Option.bind_some,
            Surroundings.qualify?_of_not_onEnvironment henv] at hclass
          have hknown : state.surroundings.known = state.known := rfl
          rw [hknown] at hclass
          cases htable : (state.surroundings.tableName? ins ins.b).filter state.known.contains with
          | none =>
              rw [htable] at hclass
              exact .of_unrelated hclass hrequires
          | some table =>
              rw [htable] at hclass
              exact .of_read hclass hrequires rfl rfl rfl
      | true =>
          rw [if_pos rfl]
          dsimp only
          rw [hconstant, Option.bind_some, Surroundings.qualify?_of_onEnvironment henv] at hclass
          by_cases hname : name = "require"
          · rw [if_pos hname]
            have hrequires : state.surroundings.requires? ins rest = requireCall? ins rest := by
              rw [Surroundings.requires?, if_pos ⟨hkind, by rw [hconstant, hname], henv⟩]
            rw [hrequires] at hclass
            cases hcall : requireCall? ins rest with
            | none =>
                rw [hcall] at hclass hrequires
                exact .of_read hclass hrequires rfl rfl rfl
            | some found =>
                obtain ⟨moduleName, call⟩ := found
                rw [hcall] at hclass hrequires
                exact {
                  references := by
                    rw [references_require, edit, hclass, hname]; rfl
                  pending := by rw [pendingAfter, hclass]; rfl
                  surroundings := by
                    rw [surroundings_require, Surroundings.next, hrequires]; rfl }
          · have hrequires : state.surroundings.requires? ins rest = none := by
              rw [Surroundings.requires?, if_neg (by simp [hconstant, hname])]
            rw [hrequires] at hclass
            rw [if_neg hname]
            by_cases hmodule : name = "module" ∧ (state.addPendingRead ins name).inOutermost
            · rw [if_pos hmodule]
              exact .of_read hclass hrequires rfl rfl rfl
            · rw [if_neg hmodule]
              exact .of_read hclass hrequires rfl rfl rfl

/-- The step at a write of a field of the environment or of a captured table. -/
theorem follows_globalSet (hkind : ins.kind = .globalSet) :
    state.Follows ins rest (state.globalSet ins) := by
  have hrequires : state.surroundings.requires? ins rest = none :=
    requires?_of_kind (by simp [hkind])
  have hclass : state.surroundings.classify ins rest =
      ((ins.constant.bind (state.surroundings.qualify? ins ins.a)).map .assign).getD
        .unrelated := by
    rw [Surroundings.classify, hkind]
  have hassign {name : String} (h : state.surroundings.classify ins rest = .assign name) :
      state.Follows ins rest (state.addReference ins.line name true) :=
    { references := by rw [edit, h]; rfl
      pending := by rw [pendingAfter, h]; rfl
      surroundings := by rw [Surroundings.next, hrequires]; rfl }
  unfold globalSet
  rw [owner_eq]
  cases hconstant : ins.constant with
  | none => exact .of_unrelated (by rw [hclass, hconstant]; rfl) hrequires
  | some name =>
      rw [hconstant, Option.bind_some] at hclass
      cases henv : state.surroundings.onEnvironment ins ins.a with
      | true =>
          rw [Surroundings.qualify?_of_onEnvironment henv] at hclass
          exact hassign hclass
      | false =>
          rw [if_neg (by simp)]
          rw [Surroundings.qualify?_of_not_onEnvironment henv] at hclass
          have hknown : state.surroundings.known = state.known := rfl
          rw [hknown] at hclass
          cases htable : (state.surroundings.tableName? ins ins.a).filter state.known.contains with
          | none => rw [htable] at hclass; exact .of_unrelated hclass hrequires
          | some table => rw [htable] at hclass; exact hassign hclass

/-- The step at an access to a field of a table in a register. -/
theorem follows_fieldAccess (hkind : ins.kind = .tableGet ∨ ins.kind = .tableSet) :
    state.Follows ins rest (state.fieldAccess ins) := by
  have hrequires : state.surroundings.requires? ins rest = none :=
    requires?_of_kind (by rcases hkind with h | h <;> simp [h])
  have hclass : state.surroundings.classify ins rest =
      (ins.constant.map fun key =>
        AccessKind.field key (ins.kind == .tableSet) (state.surroundings.holder? ins)).getD
          .unrelated := by
    rcases hkind with h | h <;> simp only [Surroundings.classify, h]
  unfold fieldAccess
  cases hconstant : ins.constant with
  | none => exact .of_unrelated (by rw [hclass, hconstant]; rfl) hrequires
  | some key =>
      rw [hconstant, Option.map_some, Option.getD_some] at hclass
      dsimp only
      cases hcompleted : state.completed? ins ins.tableRegister with
      | some pending =>
          exact {
            references := by
              rw [edit, hclass]
              dsimp only
              rw [hcompleted]
              exact references_complete state pending key (ins.kind == .tableSet)
            pending := by
              rw [pendingAfter, hclass]
              dsimp only
              rw [hcompleted]
              rfl
            surroundings := by rw [Surroundings.next, hrequires]; rfl }
      | none =>
          have hpending : state.pendingAfter ins rest = state.pending := by
            rw [pendingAfter, hclass]
            dsimp only
            rw [hcompleted]
            rfl
          have hedit : state.edit ins rest =
              ((state.surroundings.holder? ins).map fun holder => ReferenceEdit.add
                { line := ins.line, name := Text.member holder key,
                  write := ins.kind == .tableSet }).getD .keep := by
            rw [edit, hclass]
            dsimp only
            rw [hcompleted]
          have hnext : state.surroundings.next ins rest = state.surroundings := by
            rw [Surroundings.next, hrequires]
          have hholder : state.surroundings.holder? ins =
              ((state.scope.localAt? ins.tableRegister ins.index).filter (·.known)).map
                (·.name) := rfl
          rw [hholder] at hedit
          dsimp only
          cases hlocal : state.scope.localAt? ins.tableRegister ins.index with
          | none =>
              rw [hlocal] at hedit
              exact ⟨by rw [hedit]; rfl, hpending.symm, hnext.symm⟩
          | some slot =>
              dsimp only
              rw [hlocal, Option.filter_some] at hedit
              cases hknown : slot.known with
              | true =>
                  rw [hknown] at hedit
                  exact ⟨by rw [hedit]; rfl, hpending.symm, hnext.symm⟩
              | false =>
                  rw [hknown] at hedit
                  exact ⟨by rw [hedit]; rfl, hpending.symm, hnext.symm⟩

/-- The step at a read of a captured variable. -/
theorem follows_upvalueGet (hkind : ins.kind = .upvalueGet) :
    state.Follows ins rest (state.upvalueGet ins) := by
  have hrequires : state.surroundings.requires? ins rest = none :=
    requires?_of_kind (by simp [hkind])
  have hclass : state.surroundings.classify ins rest =
      ((state.surroundings.captured? ins).map .load).getD .unrelated := by
    rw [Surroundings.classify, hkind]
  have hload {name : String} (h : state.surroundings.classify ins rest = .load name) :
      state.Follows ins rest { state with pending := some (pendingRead ins name none) } :=
    { references := by rw [edit, h]; rfl
      pending := by rw [pendingAfter, h]
      surroundings := by rw [Surroundings.next, hrequires]; rfl }
  have hname {name : String}
      (h : state.surroundings.captured? ins = (some name).filter fun name =>
        name != "" && state.known.contains name) :
      state.Follows ins rest
        (if name ≠ "" ∧ state.known.contains name then
          { state with pending := some (pendingRead ins name none) }
        else state) := by
    rw [h, Option.filter_some] at hclass
    by_cases hused : name ≠ "" ∧ state.known.contains name = true
    · rw [if_pos (by simpa using hused)] at hclass
      rw [if_pos hused]
      exact hload hclass
    · rw [if_neg (by simpa using hused)] at hclass
      rw [if_neg hused]
      exact .of_unrelated hclass hrequires
  have hcaptured : state.surroundings.captured? ins =
      (((state.scope.capturedAt? ins.b).map (·.name)).or ins.constant).filter fun name =>
        name != "" && state.known.contains name := rfl
  unfold upvalueGet
  cases hslot : state.scope.capturedAt? ins.b with
  | some captured => rw [hslot] at hcaptured; exact hname hcaptured
  | none =>
      rw [hslot] at hcaptured
      cases hconstant : ins.constant with
      | some name => rw [hconstant] at hcaptured; exact hname hcaptured
      | none =>
          rw [hconstant] at hcaptured
          exact .of_unrelated (by rw [hclass, hcaptured]; rfl) hrequires

/-- **Every step follows its instruction.** -/
theorem follows_advance (state : ResolverState) (ins : Instruction) (rest : List Instruction) :
    state.Follows ins rest (state.advance ins rest) := by
  unfold advance step
  cases hkind : ins.kind with
  | globalGet => exact follows_globalGet hkind
  | globalSet => exact follows_globalSet hkind
  | tableGet => exact follows_fieldAccess (.inl hkind)
  | tableSet => exact follows_fieldAccess (.inr hkind)
  | upvalueGet => exact follows_upvalueGet hkind
  | loadConstant | call | ret | retNone | other =>
      exact .of_unrelated (by rw [Surroundings.classify, hkind])
        (requires?_of_kind (by simp [hkind]))

end Kinds

/-- The references after a step. -/
theorem references_advance (state : ResolverState) (ins : Instruction)
    (rest : List Instruction) :
    (state.advance ins rest).report.references
      = (state.edit ins rest).apply state.report.references :=
  (follows_advance state ins rest).references

/-- The pending read after a step. -/
theorem pending_advance (state : ResolverState) (ins : Instruction) (rest : List Instruction) :
    (state.advance ins rest).pending = state.pendingAfter ins rest :=
  (follows_advance state ins rest).pending

/-- The known locals and the scope after a step. -/
@[simp] theorem surroundings_advance (state : ResolverState) (ins : Instruction)
    (rest : List Instruction) :
    (state.advance ins rest).surroundings = state.surroundings.next ins rest :=
  (follows_advance state ins rest).surroundings

/-! ## Instructions that a step uses up -/

/-- Loaded constants and calls change nothing by themselves. -/
theorem step_of_inert {ins : Instruction} (h : ins.kind = .loadConstant ∨ ins.kind = .call)
    (state : ResolverState) (rest : List Instruction) : state.step ins rest = (state, 0) := by
  rcases h with h | h <;> simp [step, h]

/-- **The instructions that a step uses up are a loaded constant and a call**, so they change
nothing by themselves. -/
theorem inert_of_mem_take (state : ResolverState) (ins : Instruction)
    (rest : List Instruction) :
    ∀ used ∈ rest.take (state.step ins rest).2, used.kind = .loadConstant ∨ used.kind = .call := by
  unfold step
  cases ins.kind with
  | globalSet | tableGet | tableSet | upvalueGet | loadConstant | call | ret | retNone | other =>
      simp
  | globalGet =>
      dsimp only
      unfold globalGet
      split
      · simp
      · simp
      · simp
      · dsimp only
        split
        · cases hcall : requireCall? ins rest with
          | none => simp
          | some found =>
              obtain ⟨moduleName, call⟩ := found
              obtain ⟨load, later, rfl, hload, -, hkind, -⟩ := requireCall?_eq_some hcall
              intro used hmem
              have hcases : used = load ∨ used = call := by simpa using hmem
              rcases hcases with rfl | rfl
              · exact .inl hload
              · exact .inr hkind
        · split <;> simp

/-- Passing over instructions that change nothing is the same as walking over them. -/
theorem walkCode_of_inert (state : ResolverState) (used : Nat) (code : List Instruction)
    (h : ∀ ins ∈ code.take used, ins.kind = .loadConstant ∨ ins.kind = .call) :
    state.walkCode used code = state.walkCode 0 code := by
  induction code generalizing used with
  | nil => cases used <;> rfl
  | cons ins rest ih =>
      cases used with
      | zero => rfl
      | succ used =>
          rw [List.take_succ_cons] at h
          have hstep := step_of_inert (h ins List.mem_cons_self) state rest
          rw [walkCode, walkCode, hstep]
          exact ih used fun other hmem => h other (List.mem_cons_of_mem _ hmem)

/-- **A walk takes one step after the other**, and passes over nothing that matters. -/
theorem walkCode_cons (state : ResolverState) (ins : Instruction) (rest : List Instruction) :
    state.walkCode 0 (ins :: rest) = (state.advance ins rest).walkCode 0 rest := by
  rw [walkCode, advance]
  exact walkCode_of_inert _ _ _ (inert_of_mem_take state ins rest)

end ResolverState

end LuaGlobals
