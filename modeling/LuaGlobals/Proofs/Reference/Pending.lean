import LuaGlobals.Proofs.Reference.Registry

/-! # The pending read

Between two instructions the resolver keeps one read that a field access may still complete, with
the place of the reference that the read made. Completing it overwrites that place, so the place has
to hold this reference and no other one, over all functions of a run.

* **`ResolverState.Grounded`** says what the pending read of a state is.
* `forall_mem_trail` carries a property of states along the trail of a run.
* **`pending_read_grounded`**: the pending read is grounded in every state of a run, and is gone
  once it is completed and where a function ends. -/

namespace LuaGlobals

namespace ResolverState

variable {functions : List FunctionListing} {state : ResolverState} {ins : Instruction}
  {rest : List Instruction} {pending : PendingRead}

/-! ## Properties along a trail -/

/-- What stepping over the instructions of some code keeps holds in all states that a walk over the
code comes by, and in the last one. -/
theorem forall_mem_codeTrail {motive : ResolverState → Prop} {code : List Instruction}
    (hstep : ∀ state, ∀ ins ∈ code, ∀ rest, motive state → motive (state.advance ins rest))
    (state : ResolverState) (used : Nat) (h : motive state) :
    (∀ after ∈ state.codeTrail used code, motive after) ∧ motive (state.walkCode used code) := by
  induction code generalizing state used with
  | nil => cases used <;> exact ⟨List.forall_mem_nil _, h⟩
  | cons ins rest ih =>
      have hlater := ih fun state ins hins => hstep state ins (List.mem_cons_of_mem _ hins)
      cases used with
      | succ used => exact hlater state used h
      | zero =>
          have hnext : motive (state.advance ins rest) := hstep state ins List.mem_cons_self rest h
          obtain ⟨hall, hlast⟩ := hlater (state.advance ins rest) (state.step ins rest).2 hnext
          exact ⟨List.forall_mem_cons.mpr ⟨hnext, hall⟩, hlast⟩

/-- **What entering functions, stepping over their instructions and leaving them keeps holds all
along a trail.** -/
theorem forall_mem_trail {motive : ResolverState → Prop}
    (henter : ∀ state, ∀ listing ∈ functions, motive state → motive (state.enter listing))
    (hstep : ∀ state, ∀ listing ∈ functions, ∀ ins ∈ listing.instructions, ∀ rest,
      motive state → motive (state.advance ins rest))
    (hleave : ∀ state, motive state → motive state.leave)
    (state : ResolverState) (h : motive state) : ∀ after ∈ state.trail functions, motive after := by
  induction functions generalizing state with
  | nil => exact List.forall_mem_singleton.mpr h
  | cons listing rest ih =>
      have hentered := henter state listing List.mem_cons_self h
      obtain ⟨hcode, hlast⟩ := forall_mem_codeTrail (hstep · listing List.mem_cons_self)
        (state.enter listing) 0 hentered
      have hlater := ih
        (fun state other hother => henter state other (List.mem_cons_of_mem _ hother))
        (fun state other hother => hstep state other (List.mem_cons_of_mem _ hother))
        (state.walk listing) (hleave _ hlast)
      rw [trail, List.forall_mem_append]
      exact ⟨List.forall_mem_cons.mpr ⟨h, List.forall_mem_cons.mpr ⟨hentered, hcode⟩⟩, hlater⟩

/-! ## What is pending -/

/-- **The pending read of a state is grounded** in the functions of a run, the references and the
registry. -/
structure Grounded (state : ResolverState) (functions : List FunctionListing) : Prop where
  /-- It is the read of an instruction of the functions. -/
  made : ∀ pending ∈ state.pending, ∃ listing ∈ functions, ∃ ins ∈ listing.instructions,
    pending = pendingRead ins pending.qualifier pending.reference
  /-- Its place, if it keeps one, is in the list and holds the reference of the read. -/
  backed : state.Backed
  /-- Without a place it is the load of a local that is registered. -/
  loaded : ∀ pending ∈ state.pending, pending.reference = none →
    pending.qualifier ∈ state.known.names

/-- Where no read is pending there is none to ground. -/
theorem Grounded.of_pending_eq_none (h : state.pending = none) : state.Grounded functions where
  made pending hmem := absurd hmem (by simp [h])
  backed := .of_pending_eq_none h
  loaded pending hmem := absurd hmem (by simp [h])

/-- An instruction that loads a captured module loads a registered local. -/
theorem mem_names_of_classify_load {around : Surroundings} {name : String}
    (h : around.classify ins rest = .load name) : name ∈ around.known.names := by
  have hcaptured : around.captured? ins = some name := by
    unfold Surroundings.classify at h
    cases hkind : ins.kind with
    | upvalueGet =>
        rw [hkind] at h
        cases hname : around.captured? ins with
        | none => simp [hname] at h
        | some other => simpa [hname] using h
    | globalGet =>
        rw [hkind] at h
        dsimp only at h
        split at h
        · cases h
        · cases hname : ins.constant.bind (around.qualify? ins ins.b) <;> simp [hname] at h
    | globalSet =>
        rw [hkind] at h
        cases hname : ins.constant.bind (around.qualify? ins ins.a) <;> simp [hname] at h
    | tableGet | tableSet =>
        rw [hkind] at h
        cases hkey : ins.constant <;> simp [hkey] at h
    | loadConstant | call | ret | retNone | other => simp [hkind] at h
  obtain ⟨-, hknown⟩ := Option.filter_eq_some_iff.mp hcaptured
  rw [← KnownLocals.contains_iff_mem_names]
  exact (Bool.and_eq_true _ _ |>.mp hknown).2

/-- **What is pending behind a step** was pending before it, or is the read of its instruction: one
that made a reference, or the load of a captured module. -/
theorem mem_pendingAfter (h : pending ∈ state.pendingAfter ins rest) :
    pending ∈ state.pending
      ∨ ∃ name, state.surroundings.classify ins rest = .read name
          ∧ pending = pendingRead ins name (some state.report.references.length)
      ∨ state.surroundings.classify ins rest = .load name
          ∧ pending = pendingRead ins name none := by
  unfold pendingAfter at h
  cases hclass : state.surroundings.classify ins rest with
  | read name =>
      rw [hclass] at h
      exact .inr ⟨name, .inl ⟨rfl, (Option.some.inj h).symm⟩⟩
  | load name =>
      rw [hclass] at h
      exact .inr ⟨name, .inr ⟨rfl, (Option.some.inj h).symm⟩⟩
  | require =>
      rw [hclass] at h
      cases h
  | assign name | unrelated =>
      rw [hclass] at h
      exact .inl h
  | field key write holder? =>
      rw [hclass] at h
      dsimp only at h
      split at h
      · cases h
      · exact .inl h

/-- **A step over an instruction of the functions keeps the pending read grounded.** -/
theorem Grounded.advance (h : state.Grounded functions) {listing : FunctionListing}
    (hlisting : listing ∈ functions) (hins : ins ∈ listing.instructions)
    (rest : List Instruction) : (state.advance ins rest).Grounded functions := by
  have hpending (pending : PendingRead) (hmem : pending ∈ (state.advance ins rest).pending) :=
    mem_pendingAfter (pending_advance state ins rest ▸ hmem)
  have hgrows : state.known.names <+: (state.advance ins rest).known.names :=
    Move.names_prefix (.advance ins rest : Move functions state _)
  refine ⟨fun pending hmem => ?_, h.backed.advance ins rest, fun pending hmem hplace => ?_⟩
  · rcases hpending pending hmem with hbefore | ⟨name, ⟨-, rfl⟩ | ⟨-, rfl⟩⟩
    · exact h.made pending hbefore
    · exact ⟨listing, hlisting, ins, hins, rfl⟩
    · exact ⟨listing, hlisting, ins, hins, rfl⟩
  · rcases hpending pending hmem with hbefore | ⟨name, ⟨-, rfl⟩ | ⟨hclass, rfl⟩⟩
    · exact hgrows.subset (h.loaded pending hbefore hplace)
    · cases hplace
    · exact hgrows.subset (mem_names_of_classify_load hclass)

/-- **The pending read is grounded in every state of a run** that starts without one. -/
theorem grounded_of_mem_trail (hstart : state.pending = none) :
    ∀ after ∈ state.trail functions, after.Grounded functions :=
  forall_mem_trail (fun _ _ _ _ => .of_pending_eq_none rfl)
    (fun _ _ hlisting _ hins rest h => h.advance hlisting hins rest)
    (fun _ _ => .of_pending_eq_none rfl) state (.of_pending_eq_none hstart)

/-! ## Completion -/

/-- A field access that completes the pending read leaves none pending, and the reference with its
key stands at the place of the read, or comes last if the read keeps no place. -/
theorem advance_of_completed? (rest : List Instruction)
    (hkind : ins.kind = .tableGet ∨ ins.kind = .tableSet) {key : String}
    (hkey : ins.constant = some key)
    (hcompleted : state.completed? ins ins.tableRegister = some pending) :
    let ref : Reference :=
      { line := pending.line, name := Text.member pending.qualifier key
        write := ins.kind == .tableSet }
    (state.advance ins rest).pending = none
      ∧ (state.advance ins rest).report.references =
        ((pending.reference.map (ReferenceEdit.rename · ref)).getD (.add ref)).apply
          state.report.references := by
  intro ref
  have hclass : state.surroundings.classify ins rest
      = .field key (ins.kind == .tableSet) (state.surroundings.holder? ins) := by
    unfold Surroundings.classify
    rcases hkind with hkind | hkind <;> simp [hkind, hkey]
  rw [pending_advance, references_advance, pendingAfter, edit, hclass]
  dsimp only
  rw [hcompleted]
  exact ⟨rfl, rfl⟩

/-- **Completing a grounded read exchanges its own reference** and no other one. -/
theorem Backed.advance_of_completed? (h : state.Backed) (rest : List Instruction)
    (hkind : ins.kind = .tableGet ∨ ins.kind = .tableSet) {key : String}
    (hkey : ins.constant = some key)
    (hcompleted : state.completed? ins ins.tableRegister = some pending) {place : Nat}
    (hplace : pending.reference = some place) :
    ∃ front back, front.length = place
      ∧ state.report.references
        = front ++ { line := pending.line, name := pending.qualifier, write := false } :: back
      ∧ (state.advance ins rest).report.references
        = front ++ { line := pending.line, name := Text.member pending.qualifier key
                     write := ins.kind == .tableSet } :: back := by
  obtain ⟨hpending, -⟩ := Option.filter_eq_some_iff.mp hcompleted
  obtain ⟨hlt, hget⟩ := List.getElem?_eq_some_iff.mp (h pending hpending place hplace)
  obtain ⟨-, hreferences⟩ := ResolverState.advance_of_completed? rest hkind hkey hcompleted
  rw [hplace] at hreferences
  refine ⟨state.report.references.take place, state.report.references.drop (place + 1),
    List.length_take_of_le hlt.le, ?_, ?_⟩
  · rw [← hget, List.getElem_cons_drop, List.take_append_drop]
  · exact hreferences.trans (List.set_eq_take_append_cons_drop.trans (if_pos hlt))

/-! ## The account of the pending read -/

/-- **The pending read is always backed by its own reference.** Let a run over any functions start
without a pending read:

* in each state that the run comes by, the pending read is that of an instruction of the functions;
  if it keeps a place, the reference there is the read of its name on its line, and if it keeps
  none, its name is that of a registered local;
* from such a state, a field access that completes the pending read leaves none, and changes of the
  references at most the one of this read;
* behind each function no read is pending. -/
theorem pending_read_grounded (hstart : state.pending = none) (functions : List FunctionListing) :
    (∀ after ∈ state.trail functions, after.Grounded functions)
      ∧ (∀ before ∈ state.trail functions, ∀ (ins : Instruction) (rest : List Instruction)
          (key : String) (pending : PendingRead),
          ins.kind = .tableGet ∨ ins.kind = .tableSet → ins.constant = some key →
          before.completed? ins ins.tableRegister = some pending →
            (before.advance ins rest).pending = none
              ∧ ∀ place, pending.reference = some place →
                ∃ front back, front.length = place
                  ∧ before.report.references
                    = front ++ { line := pending.line, name := pending.qualifier
                                 write := false } :: back
                  ∧ (before.advance ins rest).report.references
                    = front ++ { line := pending.line, name := Text.member pending.qualifier key
                                 write := ins.kind == .tableSet } :: back)
      ∧ ∀ count, ((functions.take count).foldl walk state).pending = none := by
  refine ⟨grounded_of_mem_trail hstart, ?_, fun count => ?_⟩
  · intro before hbefore ins rest key pending hkind hkey hcompleted
    exact ⟨(advance_of_completed? rest hkind hkey hcompleted).1, fun place hplace =>
      (grounded_of_mem_trail hstart before hbefore).backed.advance_of_completed? rest hkind hkey
        hcompleted hplace⟩
  · induction functions.take count using List.reverseRecOn with
    | nil => exact hstart
    | append_singleton front listing _ =>
        rw [List.foldl_append]
        rfl

end ResolverState

/-- A main chunk that reads a field of a global. -/
def memberMain : FunctionListing :=
  { kind := .main
    source := "u.lua"
    lineDefined := 0
    instructions := [
      ⟨1, 3, "GETGLOBAL", some 0, some (-1), none, some "string", none⟩,
      ⟨2, 4, "GETTABLE", some 0, some 0, some (-2), some "format", none⟩]
    scope := ⟨[], []⟩ }

/-- The read of the global is pending with the first place, and the field access exchanges the
reference there. -/
theorem memberMain_pending_grounded :
    let start := ResolverState.start .empty
    let read := start.addPendingRead
      ⟨1, 3, "GETGLOBAL", some 0, some (-1), none, some "string", none⟩ "string"
    let field : Instruction := ⟨2, 4, "GETTABLE", some 0, some 0, some (-2), some "format", none⟩
    start.pending = none ∧ read ∈ start.trail [memberMain]
      ∧ read.pending = some ⟨1, 3, some 0, "string", some 0⟩ ∧ read.Grounded [memberMain]
      ∧ (read.advance field []).pending = none
      ∧ (∃ front back, front.length = 0
        ∧ read.report.references = front ++ ⟨3, "string", false⟩ :: back
        ∧ (read.advance field []).report.references = front ++ ⟨3, "string.format", false⟩ :: back)
      ∧ (start.walk memberMain).pending = none := by
  intro start read field
  have hmem : read ∈ start.trail [memberMain] := by decide
  have hcompleted : read.completed? field field.tableRegister
      = some ⟨1, 3, some 0, "string", some 0⟩ := by decide
  have hstart : start.pending = none := rfl
  obtain ⟨hgrounded, hcompletes, hbehind⟩ :=
    ResolverState.pending_read_grounded hstart [memberMain]
  obtain ⟨hnone, hexchanged⟩ :=
    hcompletes read hmem field [] "format" _ (.inl (by decide)) rfl hcompleted
  exact ⟨hstart, hmem, rfl, hgrounded read hmem, hnone, hexchanged 0 rfl, hbehind 1⟩

end LuaGlobals
