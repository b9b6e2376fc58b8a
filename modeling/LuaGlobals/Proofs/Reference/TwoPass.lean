import LuaGlobals.Proofs.Reference.Walk
import Mathlib.Data.List.Chain

/-! # The resolver finds what the two passes say

* **`ResolverState.Tracks`** is the invariant of a walk: the pending read is the access that waits in
  the second pass, and the place that it keeps holds its own reference.
* **`references_walkCode`**: what a walk makes of the references, with the pending read named by
  looking ahead.
* **`references_resolveFunctions`**: the references of a unit are `expectedReferences`. -/

namespace LuaGlobals

/-! ## The read that waits -/

/-- Only a read that takes the place of earlier ones can wait. -/
theorem Access.supersedes_of_awaited? {access : Access} (h : access.awaited?.isSome) :
    access.supersedes = true := by
  unfold awaited? at h
  unfold supersedes
  cases hkind : access.kind <;> simp [hkind] at h ⊢

/-- An access to no field completes nothing. -/
theorem Access.completedBy_of_field?_eq_none (read access : Access) (h : access.field? = none) :
    read.completedBy access = false := by
  simp [completedBy, h]

/-- Nothing waits among accesses that are no reads. -/
theorem waiting?_eq_none {accesses : List Access}
    (h : ∀ access ∈ accesses, access.supersedes = false) : waiting? accesses = none := by
  induction accesses with
  | nil => rfl
  | cons access later ih =>
      have hawaited : access.awaited?.isSome = false := by
        rw [← Bool.not_eq_true]
        intro hsome
        have hsupersedes := Access.supersedes_of_awaited? hsome
        rw [h access List.mem_cons_self] at hsupersedes
        exact Bool.false_ne_true hsupersedes
      rw [waiting?, if_neg (by simp [hawaited])]
      exact ih fun other hmem => h other (List.mem_cons_of_mem _ hmem)

/-- **One access more**: a read takes the place of the one that waited, a field access ends the
wait of the read that it completes, and all else lets it wait. -/
theorem waiting?_append (earlier : List Access) (access : Access) :
    waiting? (earlier ++ [access]) =
      if access.supersedes then (if access.awaited?.isSome then some access else none)
      else (waiting? earlier).filter (!·.completedBy access) := by
  induction earlier with
  | nil =>
      by_cases hawaited : access.awaited?.isSome
      · simp [waiting?, hawaited, Access.supersedes_of_awaited? hawaited]
      · simp [waiting?, hawaited]
  | cons read between ih =>
      rw [List.cons_append, waiting?, ih]
      by_cases hsupersedes : access.supersedes
      · -- The new read stands between, so no earlier one waits.
        rw [if_neg (by simp [hsupersedes]), if_pos hsupersedes, if_pos hsupersedes]
      · rw [if_neg hsupersedes, if_neg hsupersedes, waiting?]
        by_cases hwaits : (read.awaited?.isSome
            && between.all fun other => !other.supersedes && !read.completedBy other) = true
        · rw [if_pos hwaits, Option.filter_some]
          rw [Bool.and_eq_true, List.all_eq_true] at hwaits
          have hnone : waiting? between = none :=
            waiting?_eq_none fun other hmem => by
              have hother := hwaits.2 other hmem
              rw [Bool.and_eq_true] at hother
              simpa using hother.1
          by_cases hcompleted : read.completedBy access
          · rw [if_neg (by simp [hcompleted]), if_neg (by simp [hcompleted]), hnone]
            rfl
          · have hall : (read.awaited?.isSome && (between ++ [access]).all fun other =>
                !other.supersedes && !read.completedBy other) = true := by
              rw [List.all_append, Bool.and_eq_true, Bool.and_eq_true, List.all_eq_true]
              exact ⟨hwaits.1, hwaits.2, by simp [hsupersedes, hcompleted]⟩
            rw [if_pos hall, if_pos (by simp [hcompleted])]
        · rw [if_neg hwaits, if_neg]
          intro hall
          rw [List.all_append, Bool.and_eq_true, Bool.and_eq_true] at hall
          exact hwaits (by rw [Bool.and_eq_true]; exact ⟨hall.1, hall.2.1⟩)

/-- A wait goes on behind an access that does not complete the read. -/
theorem filter_waiting?_eq_self {earlier : List Access} {access : Access}
    (h : ∀ read ∈ waiting? earlier, read.completedBy access = false) :
    (waiting? earlier).filter (!·.completedBy access) = waiting? earlier := by
  cases hwaiting : waiting? earlier with
  | none => rfl
  | some read => rw [Option.filter_some, h read hwaiting]; rfl

/-! ## Pending reads and waiting accesses -/

/-- Related values that pass related tests stay related. -/
theorem rel_filter {α β : Type} {r : α → β → Prop} {a? : Option α} {b? : Option β}
    (h : Option.Rel r a? b?) {p : α → Bool} {q : β → Bool}
    (htest : ∀ a b, r a b → p a = q b) : Option.Rel r (a?.filter p) (b?.filter q) := by
  cases h with
  | none => exact .none
  | some hrel =>
      rw [Option.filter_some, Option.filter_some, htest _ _ hrel]
      split
      · exact .some hrel
      · exact .none

/-- A pending read is the one of an access: it has its position, register and name, and keeps a
place exactly if the access makes a reference of its own. -/
structure PendingRead.Matches (pending : PendingRead) (read : Access) : Prop where
  /-- Both stand at one position. -/
  index : pending.index = read.instruction.index
  /-- Both stand on one line. -/
  line : pending.line = read.instruction.line
  /-- Both fill one register. -/
  register : pending.register = read.instruction.a
  /-- A read of a global keeps a place, the load of a captured module does not. -/
  kind : read.kind =
    if pending.reference.isSome then .read pending.qualifier else .load pending.qualifier

/-- A field access completes a pending read exactly if it completes the access. -/
theorem PendingRead.Matches.completedBy_eq {pending : PendingRead} {read : Access}
    (h : pending.Matches read) (access : Access) (hfield : access.field?.isSome) :
    pending.completedBy access.instruction access.instruction.tableRegister
      = read.completedBy access := by
  simp [PendingRead.completedBy, Access.completedBy, h.index, h.register, hfield]

namespace ResolverState

/-- **The place of a pending read holds its own reference**, not yet renamed. -/
def Backed (state : ResolverState) : Prop :=
  ∀ pending ∈ state.pending, ∀ place ∈ pending.reference,
    state.report.references[place]? =
      some { line := pending.line, name := pending.qualifier, write := false }

/-- **The invariant of a walk** behind some accesses: the pending read is the access that waits,
and it is backed. -/
structure Tracks (state : ResolverState) (earlier : List Access) : Prop where
  /-- The pending read is the access that waits. -/
  pending : Option.Rel PendingRead.Matches state.pending (waiting? earlier)
  /-- The place of the pending read holds its reference. -/
  backed : state.Backed

/-- Adding a reference keeps a read backed. -/
theorem Backed.append {state after : ResolverState} (h : state.Backed) (added : List Reference)
    (hreferences : after.report.references = state.report.references ++ added)
    (hpending : after.pending = state.pending) : after.Backed := by
  intro pending hmem place hplace
  rw [hpending] at hmem
  have hbacked := h pending hmem place hplace
  have hlt : place < state.report.references.length := (List.getElem?_eq_some_iff.mp hbacked).1
  rw [hreferences, List.getElem?_append_left hlt]
  exact hbacked

/-- Nothing needs backing when no read is pending. -/
theorem Backed.of_pending_eq_none {state : ResolverState} (h : state.pending = none) :
    state.Backed := by
  intro pending hmem
  rw [h] at hmem
  exact absurd hmem (by simp)

/-- The read that a field access completes in a state is the one that it completes looking
back. -/
theorem Tracks.completed? {state : ResolverState} {earlier : List Access}
    (h : state.Tracks earlier) (access : Access) (hfield : access.field?.isSome) :
    Option.Rel PendingRead.Matches
      (state.completed? access.instruction access.instruction.tableRegister)
      (LuaGlobals.completed? earlier access) :=
  rel_filter h.pending fun _ _ hmatches => hmatches.completedBy_eq access hfield

/-- A field access leaves a read pending that it does not complete. -/
theorem pendingAfter_field {state : ResolverState} {ins : Instruction} {rest : List Instruction}
    {key : String} {write : Bool} {holder? : Option String}
    (hclass : state.surroundings.classify ins rest = .field key write holder?) :
    state.pendingAfter ins rest =
      state.pending.filter fun pending => !pending.completedBy ins ins.tableRegister := by
  rw [pendingAfter, hclass]
  dsimp only
  unfold ResolverState.completed?
  cases state.pending with
  | none => rfl
  | some pending =>
      rw [Option.filter_some, Option.filter_some]
      cases pending.completedBy ins ins.tableRegister <;> rfl

/-- The fresh pending read of an instruction matches its access. -/
theorem pendingRead_matches (ins : Instruction) (name : String) (place? : Option Nat) :
    (pendingRead ins name place?).Matches
      ⟨ins, if place?.isSome then .read name else .load name⟩ :=
  ⟨rfl, rfl, rfl, rfl⟩

/-- The pending read is the waiting access behind one more instruction. -/
theorem Tracks.pending_advance {state : ResolverState} {earlier : List Access}
    (h : state.Tracks earlier) (ins : Instruction) (rest : List Instruction) :
    Option.Rel PendingRead.Matches (state.advance ins rest).pending
      (waiting? (earlier ++ [⟨ins, state.surroundings.classify ins rest⟩])) := by
  rw [ResolverState.pending_advance, waiting?_append]
  cases hclass : state.surroundings.classify ins rest with
  | read name =>
      rw [pendingAfter, hclass]
      exact .some (pendingRead_matches ins name (some _))
  | load name =>
      rw [pendingAfter, hclass]
      exact .some (pendingRead_matches ins name none)
  | require =>
      rw [pendingAfter, hclass]
      exact .none
  | assign name =>
      have hpassed := filter_waiting?_eq_self fun read (_ : read ∈ waiting? earlier) =>
        read.completedBy_of_field?_eq_none ⟨ins, .assign name⟩ rfl
      rw [pendingAfter, hclass]
      exact hpassed.symm ▸ h.pending
  | unrelated =>
      have hpassed := filter_waiting?_eq_self fun read (_ : read ∈ waiting? earlier) =>
        read.completedBy_of_field?_eq_none ⟨ins, .unrelated⟩ rfl
      rw [pendingAfter, hclass]
      exact hpassed.symm ▸ h.pending
  | field key write holder? =>
      rw [pendingAfter_field hclass]
      exact rel_filter h.pending fun pending read hmatches =>
        congrArg (!·) (hmatches.completedBy_eq ⟨ins, .field key write holder?⟩ rfl)

/-- A step keeps the pending read backed. -/
theorem Backed.advance {state : ResolverState} (h : state.Backed) (ins : Instruction)
    (rest : List Instruction) : (state.advance ins rest).Backed := by
  have hreferences := references_advance state ins rest
  have hpending := ResolverState.pending_advance state ins rest
  rw [edit] at hreferences
  cases hclass : state.surroundings.classify ins rest with
  | read name =>
      rw [hclass] at hreferences
      rw [pendingAfter, hclass] at hpending
      intro pending hmem place hplace
      rw [hpending] at hmem
      obtain rfl : pendingRead ins name (some state.report.references.length) = pending := by
        simpa using hmem
      obtain rfl : state.report.references.length = place := by simpa [pendingRead] using hplace
      rw [hreferences]
      exact List.getElem?_concat_length
  | load name =>
      rw [pendingAfter, hclass] at hpending
      intro pending hmem place hplace
      rw [hpending] at hmem
      obtain rfl : pendingRead ins name none = pending := by simpa using hmem
      exact absurd hplace (by simp [pendingRead])
  | require =>
      rw [pendingAfter, hclass] at hpending
      exact .of_pending_eq_none hpending
  | assign name =>
      rw [hclass] at hreferences
      rw [pendingAfter, hclass] at hpending
      exact h.append _ hreferences hpending
  | unrelated =>
      rw [hclass] at hreferences
      rw [pendingAfter, hclass] at hpending
      exact h.append [] (by rw [hreferences, List.append_nil]; rfl) hpending
  | field key write holder? =>
      rw [hclass] at hreferences
      rw [pendingAfter, hclass] at hpending
      dsimp only at hreferences hpending
      cases hcompleted : state.completed? ins ins.tableRegister with
      | some pending =>
          rw [hcompleted] at hpending
          exact .of_pending_eq_none hpending
      | none =>
          rw [hcompleted] at hpending hreferences
          cases holder? with
          | none => exact h.append [] (by rw [hreferences, List.append_nil]; rfl) hpending
          | some holder => exact h.append _ hreferences hpending

/-- **A step keeps the invariant**, with its access behind the earlier ones. -/
theorem Tracks.advance {state : ResolverState} {earlier : List Access}
    (h : state.Tracks earlier) (ins : Instruction) (rest : List Instruction) :
    (state.advance ins rest).Tracks
      (earlier ++ [⟨ins, state.surroundings.classify ins rest⟩]) :=
  ⟨h.pending_advance ins rest, h.backed.advance ins rest⟩

/-! ## Naming the waiting read ahead of time -/

/-- The references of a state in which the read that waits already has the name that looking ahead
gives it. -/
def settle (state : ResolverState) (waiting? : Option Access) (later : List Access) :
    List Reference :=
  match state.pending, waiting? with
  | some pending, some read =>
    match pending.reference with
    | some place => state.report.references.set place
        (read.reference pending.qualifier (read.completion? later))
    | none => state.report.references
  | _, _ => state.report.references

section Settle

variable {state after : ResolverState} {earlier later : List Access} {access : Access}

/-- A read that is never completed keeps its name. -/
theorem Tracks.settle_of_completion?_eq_none (h : state.Tracks earlier)
    (hnone : ∀ read ∈ waiting? earlier, read.completion? later = none) :
    state.settle (waiting? earlier) later = state.report.references := by
  have hpending := h.pending
  have hbacked := h.backed
  unfold Backed at hbacked
  unfold settle
  cases hstate : state.pending with
  | none => rfl
  | some pending =>
      rw [hstate] at hpending hbacked
      cases hwaiting : waiting? earlier with
      | none => rfl
      | some read =>
          rw [hwaiting] at hpending hnone
          dsimp only
          cases hplace : pending.reference with
          | none => rfl
          | some place =>
              obtain ⟨hlt, hget⟩ := List.getElem?_eq_some_iff.mp (hbacked pending rfl place hplace)
              cases hpending with
              | some hmatches =>
                  dsimp only
                  rw [hnone read rfl, Access.reference, Option.bind_none, ← hmatches.line, ← hget]
                  exact List.set_getElem_self hlt

/-- Nothing is left to settle behind the last access. -/
theorem Tracks.settle_nil (h : state.Tracks earlier) :
    state.settle (waiting? earlier) [] = state.report.references :=
  h.settle_of_completion?_eq_none fun _ _ => rfl

/-- A new read ends the wait of an earlier one. -/
theorem Tracks.settle_of_supersedes (h : state.Tracks earlier) (haccess : access.supersedes) :
    state.settle (waiting? earlier) (access :: later) = state.report.references :=
  h.settle_of_completion?_eq_none fun read _ => by rw [Access.completion?, if_pos haccess]

/-- An access that neither takes the place of the waiting read nor completes it is passed over. -/
theorem settle_cons (waiting? : Option Access) (hsupersedes : access.supersedes = false)
    (hcompleted : ∀ read ∈ waiting?, read.completedBy access = false) :
    state.settle waiting? (access :: later) = state.settle waiting? later := by
  unfold settle
  cases state.pending with
  | none => rfl
  | some pending =>
      cases waiting? with
      | none => rfl
      | some read =>
          have hread : read.completion? (access :: later) = read.completion? later := by
            rw [Access.completion?, if_neg (by simp [hsupersedes]), if_neg]
            simp [hcompleted read rfl]
          dsimp only
          rw [hread]

/-- References that are added behind the waiting read stay behind it. -/
theorem Tracks.settle_append (h : state.Tracks earlier) (added : List Reference)
    (hreferences : after.report.references = state.report.references ++ added)
    (hpending : after.pending = state.pending) :
    after.settle (waiting? earlier) later = state.settle (waiting? earlier) later ++ added := by
  have hbacked := h.backed
  unfold Backed at hbacked
  unfold settle
  rw [hpending, hreferences]
  cases hstate : state.pending with
  | none => rfl
  | some pending =>
      rw [hstate] at hbacked
      cases waiting? earlier with
      | none => rfl
      | some read =>
          dsimp only
          cases hplace : pending.reference with
          | none => rfl
          | some place =>
              obtain ⟨hlt, -⟩ := List.getElem?_eq_some_iff.mp (hbacked pending rfl place hplace)
              exact List.set_append_left _ _ hlt

/-- Nothing is left to settle when no read keeps a place. -/
theorem settle_of_reference_eq_none (waiting? : Option Access)
    (h : ∀ pending ∈ state.pending, pending.reference = none) :
    state.settle waiting? later = state.report.references := by
  unfold settle
  cases hstate : state.pending with
  | none => rfl
  | some pending =>
      cases waiting? with
      | none => rfl
      | some read => dsimp only; rw [h pending hstate]

/-- The waiting read whose completion is at hand takes the key. -/
theorem settle_of_completedBy {pending : PendingRead} {read : Access} {place : Nat}
    (hpending : state.pending = some pending) (hplace : pending.reference = some place)
    (hsupersedes : access.supersedes = false) (hcompleted : read.completedBy access = true) :
    state.settle (some read) (access :: later) =
      state.report.references.set place (read.reference pending.qualifier (some access)) := by
  unfold settle
  rw [hpending]
  dsimp only
  rw [hplace, Access.completion?, if_neg (by simp [hsupersedes]), if_pos hcompleted]

end Settle

/-- A field access that completes a read renames the reference of the read, or adds the one that a
captured module did not make. -/
theorem Tracks.settle_completing {state : ResolverState} {earlier : List Access}
    (h : state.Tracks earlier) {ins : Instruction} {rest : List Instruction} {key : String}
    {write : Bool} {holder? : Option String}
    (hclass : state.surroundings.classify ins rest = .field key write holder?)
    {pending : PendingRead} (hcompleted : state.completed? ins ins.tableRegister = some pending)
    (later : List Access) :
    (state.advance ins rest).report.references =
      state.settle (waiting? earlier) (⟨ins, .field key write holder?⟩ :: later)
        ++ (referenceAt? earlier ⟨ins, .field key write holder?⟩ later).toList := by
  have hreferences := references_advance state ins rest
  rw [edit, hclass] at hreferences
  dsimp only at hreferences
  rw [hcompleted] at hreferences
  dsimp only at hreferences
  have hrel := h.completed? ⟨ins, .field key write holder?⟩ rfl
  dsimp only at hrel
  rw [hcompleted] at hrel
  cases hread : LuaGlobals.completed? earlier ⟨ins, .field key write holder?⟩ with
  | none => rw [hread] at hrel; cases hrel
  | some read =>
      rw [hread] at hrel
      cases hrel with
      | some hmatches =>
          obtain ⟨hwaiting, hcompletes⟩ := Option.filter_eq_some_iff.mp hread
          obtain ⟨hstate, -⟩ := Option.filter_eq_some_iff.mp hcompleted
          have hkind := hmatches.kind
          rw [hwaiting, referenceAt?]
          dsimp only
          rw [hread]
          dsimp only
          cases hplace : pending.reference with
          | some place =>
              rw [hplace] at hreferences hkind
              rw [settle_of_completedBy hstate hplace rfl hcompletes, hreferences, hkind,
                Access.reference, ← hmatches.line]
              exact (List.append_nil _).symm
          | none =>
              rw [hplace] at hreferences hkind
              rw [settle_of_reference_eq_none, hreferences, hkind]
              · rw [hmatches.line]
                rfl
              · intro other hmem
                rw [hstate] at hmem
                obtain rfl : pending = other := by simpa using hmem
                exact hplace

/-- A field access that completes no read adds a reference exactly if a known local holds its
table. -/
theorem Tracks.settle_passing {state : ResolverState} {earlier : List Access}
    (h : state.Tracks earlier) {ins : Instruction} {rest : List Instruction} {key : String}
    {write : Bool} {holder? : Option String}
    (hclass : state.surroundings.classify ins rest = .field key write holder?)
    (hcompleted : state.completed? ins ins.tableRegister = none) (later : List Access) :
    (state.advance ins rest).settle
        ((waiting? earlier).filter (!·.completedBy ⟨ins, .field key write holder?⟩)) later =
      state.settle (waiting? earlier) (⟨ins, .field key write holder?⟩ :: later)
        ++ (referenceAt? earlier ⟨ins, .field key write holder?⟩ later).toList := by
  have hreferences := references_advance state ins rest
  have hpending := ResolverState.pending_advance state ins rest
  rw [edit, hclass] at hreferences
  rw [pendingAfter, hclass] at hpending
  dsimp only at hreferences hpending
  rw [hcompleted] at hreferences hpending
  have hrel := h.completed? ⟨ins, .field key write holder?⟩ rfl
  dsimp only at hrel
  rw [hcompleted] at hrel
  cases hread : LuaGlobals.completed? earlier ⟨ins, .field key write holder?⟩ with
  | some read => rw [hread] at hrel; cases hrel
  | none =>
      have hpassed : ∀ read ∈ waiting? earlier,
          read.completedBy ⟨ins, .field key write holder?⟩ = false := fun read hmem => by
        simpa using Option.filter_eq_none_iff.mp hread read hmem
      rw [filter_waiting?_eq_self hpassed, settle_cons _ rfl hpassed, referenceAt?]
      dsimp only
      rw [hread]
      cases holder? with
      | none => exact h.settle_append [] (by rw [hreferences, List.append_nil]; rfl) hpending
      | some holder => exact h.settle_append _ hreferences hpending

/-- **One step settles one access.** Behind the step the references are the settled ones of before
and the reference that the access adds. -/
theorem Tracks.settle_advance {state : ResolverState} {earlier : List Access}
    (h : state.Tracks earlier) (ins : Instruction) (rest : List Instruction)
    (later : List Access) :
    let access : Access := ⟨ins, state.surroundings.classify ins rest⟩
    (state.advance ins rest).settle (waiting? (earlier ++ [access])) later =
      state.settle (waiting? earlier) (access :: later)
        ++ (referenceAt? earlier access later).toList := by
  dsimp only
  have hreferences := references_advance state ins rest
  have hpending := ResolverState.pending_advance state ins rest
  rw [edit] at hreferences
  rw [pendingAfter] at hpending
  rw [waiting?_append]
  cases hclass : state.surroundings.classify ins rest with
  | read name =>
      rw [hclass] at hreferences hpending
      rw [h.settle_of_supersedes rfl]
      unfold settle
      rw [hpending, hreferences]
      simp [Access.supersedes, Access.awaited?, pendingRead, ReferenceEdit.apply, referenceAt?]
  | load name =>
      rw [hclass] at hreferences hpending
      rw [h.settle_of_supersedes rfl, settle_of_reference_eq_none, hreferences]
      · simp [ReferenceEdit.apply, referenceAt?]
      · intro pending hmem
        rw [hpending] at hmem
        obtain rfl : pendingRead ins name none = pending := by simpa using hmem
        rfl
  | require =>
      rw [hclass] at hreferences hpending
      rw [h.settle_of_supersedes rfl, settle_of_reference_eq_none, hreferences]
      · rfl
      · intro pending hmem
        rw [hpending] at hmem
        exact absurd hmem (by simp)
  | assign name =>
      have hpassed (read : Access) (_ : read ∈ waiting? earlier) :=
        read.completedBy_of_field?_eq_none ⟨ins, .assign name⟩ rfl
      rw [hclass] at hreferences hpending
      rw [if_neg (by simp [Access.supersedes]), filter_waiting?_eq_self hpassed,
        settle_cons _ rfl hpassed]
      exact h.settle_append _ hreferences hpending
  | unrelated =>
      have hpassed (read : Access) (_ : read ∈ waiting? earlier) :=
        read.completedBy_of_field?_eq_none ⟨ins, .unrelated⟩ rfl
      rw [hclass] at hreferences hpending
      rw [if_neg (by simp [Access.supersedes]), filter_waiting?_eq_self hpassed,
        settle_cons _ rfl hpassed]
      exact h.settle_append [] (by rw [hreferences, List.append_nil]; rfl) hpending
  | field key write holder? =>
      rw [if_neg (by simp [Access.supersedes])]
      cases hcompleted : state.completed? ins ins.tableRegister with
      | some pending =>
          rw [settle_of_reference_eq_none]
          · exact h.settle_completing hclass hcompleted later
          · rw [hclass, hcompleted] at hpending
            intro other hmem
            rw [hpending] at hmem
            exact absurd hmem (by simp)
      | none => exact h.settle_passing hclass hcompleted later

/-! ## Whole functions and units -/

/-- **A walk over code** settles the waiting read and then adds what the second pass says. -/
theorem Tracks.references_walkCode {state : ResolverState} {earlier : List Access}
    (h : state.Tracks earlier) (code : List Instruction) :
    (state.walkCode 0 code).report.references =
      state.settle (waiting? earlier) (state.surroundings.accesses code)
        ++ referencesAfter earlier (state.surroundings.accesses code) := by
  induction code generalizing state earlier with
  | nil =>
      rw [walkCode, Surroundings.accesses, h.settle_nil, referencesAfter, List.append_nil]
  | cons ins rest ih =>
      rw [walkCode_cons, ih (h.advance ins rest), surroundings_advance, Surroundings.accesses,
        referencesAfter, ← List.append_assoc]
      exact congrArg (· ++ _) (h.settle_advance ins rest _)

/-- The known locals and the scope behind a walk over code. -/
@[simp] theorem surroundings_walkCode (state : ResolverState) (code : List Instruction) :
    (state.walkCode 0 code).surroundings = state.surroundings.after code := by
  induction code generalizing state with
  | nil => rfl
  | cons ins rest ih => rw [walkCode_cons, ih, surroundings_advance, Surroundings.after]

/-- The state at the start of a function, where no read is pending. -/
def enter (state : ResolverState) (listing : FunctionListing) : ResolverState :=
  { state with scope := listing.scope, pending := none }

/-- The invariant holds at the start of a function. -/
theorem tracks_enter (state : ResolverState) (listing : FunctionListing) :
    (state.enter listing).Tracks [] :=
  ⟨.none, .of_pending_eq_none rfl⟩

/-- **A walk over a function** adds the references of its accesses. -/
theorem references_walk (state : ResolverState) (listing : FunctionListing) :
    (state.walk listing).report.references = state.report.references
      ++ referencesOf (Surroundings.accesses ⟨state.known, listing.scope⟩ listing.instructions) := by
  have hcode := (state.tracks_enter listing).references_walkCode listing.instructions
  rw [settle_of_reference_eq_none _ fun _ hmem => absurd hmem (by simp [enter])] at hcode
  exact hcode

/-- The known locals behind a walk over a function. -/
theorem known_walk (state : ResolverState) (listing : FunctionListing) :
    (state.walk listing).known =
      (Surroundings.after ⟨state.known, listing.scope⟩ listing.instructions).known :=
  congrArg Surroundings.known (surroundings_walkCode (state.enter listing) listing.instructions)

/-- **A walk over several functions** adds the references of one after the other. -/
theorem references_foldl_walk (functions : List FunctionListing) (state : ResolverState) :
    (functions.foldl walk state).report.references =
      state.report.references ++ functionReferences state.known functions := by
  induction functions generalizing state with
  | nil => exact (List.append_nil _).symm
  | cons listing rest ih =>
      rw [List.foldl_cons, ih, references_walk, known_walk, List.append_assoc]
      rfl

end ResolverState

/-- The state before the walk over a unit: the local that the main chunk returns is known. -/
def preparedState : List FunctionListing → ResolverState
  | [] => .start .empty
  | main :: _ => ((ResolverState.start .empty).detectSimpleModule main).1

/-- Looking for the returned local leaves the known locals and the functions that `prepare` tells. -/
theorem detectSimpleModule_eq_prepare (main : FunctionListing) (rest : List FunctionListing) :
    ((preparedState (main :: rest)).known,
      ((ResolverState.start .empty).detectSimpleModule main).2 :: rest) = prepare (main :: rest) := by
  dsimp only [preparedState, ResolverState.detectSimpleModule, prepare, Surroundings.register]
  cases main.returnedLocal? with
  | none => rfl
  | some index =>
      dsimp only
      cases main.scope.locals[index]? <;> rfl

/-- Nothing was found and no read is pending before the walk over a unit. -/
theorem preparedState_references (functions : List FunctionListing) :
    (preparedState functions).report.references = []
      ∧ (preparedState functions).pending = none := by
  cases functions with
  | nil => exact ⟨rfl, rfl⟩
  | cons main rest =>
      dsimp only [preparedState, ResolverState.detectSimpleModule]
      cases main.returnedLocal? with
      | none => exact ⟨rfl, rfl⟩
      | some index =>
          dsimp only
          cases main.scope.locals[index]? <;> exact ⟨rfl, rfl⟩

/-- A unit is resolved by walking over its functions from the prepared state. -/
theorem resolveFunctions_eq_foldl (functions : List FunctionListing) :
    resolveFunctions functions =
      (prepare functions).2.foldl ResolverState.walk (preparedState functions) := by
  cases functions with
  | nil => rfl
  | cons main rest => rw [← detectSimpleModule_eq_prepare]; rfl

/-- The known locals before the walk over a unit. -/
theorem preparedState_known (functions : List FunctionListing) :
    (preparedState functions).known = (prepare functions).1 := by
  cases functions with
  | nil => rfl
  | cons main rest => rw [← detectSimpleModule_eq_prepare]

/-- **The references of a unit** are the expected ones. -/
theorem references_resolveFunctions (functions : List FunctionListing) :
    (resolveFunctions functions).report.references = expectedReferences functions := by
  rw [resolveFunctions_eq_foldl, ResolverState.references_foldl_walk,
    (preparedState_references functions).1, preparedState_known]
  rfl

/-- A read that an assignment on a later line completes is one assignment, on the line of the
read. -/
example : expectedReferences [
    { kind := .main, source := "u.lua", lineDefined := 0, scope := ⟨[], []⟩
      instructions := [
        ⟨1, 1, "GETGLOBAL", some 0, some (-1), none, some "foo", none⟩,
        ⟨2, 2, "SETTABLE", some 0, some 0, some (-2), some "bar", none⟩] }]
    = [{ line := 1, name := "foo.bar", write := true }] := by
  decide

end LuaGlobals
