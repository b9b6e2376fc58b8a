import LuaGlobals.Proofs.Listing.Partition
import LuaGlobals.Proofs.Reference.TwoPass

/-! # Field accesses that complete reads

A field access names a member of a global when it follows the read of the global within a window, on
the register that received the value. The resolver remembers its most recent read, and forgets it at
the next read or at the field access that completes it. That the register has a new value in between
is not looked at.

* **`Access.Completes`** says by the accesses between them when a field access completes a read.
* **`ResolverState.Chains`** says the same by what the resolver finds pending on its way;
  `chains_iff`: both agree.
* **`chaining_sound_iff`**: which overwritten registers go unnoticed, and in which functions none
  does. -/

namespace LuaGlobals

/-! ## Completion between accesses -/

/-- **A field access completes a read** across the accesses between them. -/
structure Access.Completes (read : Access) (between : List Access) (access : Access) : Prop where
  /-- The read waits for its completion. -/
  awaited : read.awaited?.isSome = true
  /-- No access between them takes the place of the read or completes it before. -/
  passed : ∀ other ∈ between, other.supersedes = false ∧ read.completedBy other = false
  /-- The field access is in the window, on the register of the read. -/
  completedBy : read.completedBy access = true

/-- The most recent read waits behind further accesses if none of them completes it. -/
theorem waiting?_of_latest (before : List Access) {read : Access}
    (hawaited : read.awaited?.isSome = true) {between : List Access}
    (hlatest : ∀ other ∈ between, other.supersedes = false) :
    waiting? (before ++ read :: between) =
      (some read).filter fun read => between.all fun other => !read.completedBy other := by
  -- Each further access, taken at the end, can only end the wait.
  induction between using List.reverseRecOn with
  | nil =>
      rw [waiting?_append, if_pos (Access.supersedes_of_awaited? hawaited), if_pos hawaited]
      rfl
  | append_singleton between access ih =>
      obtain ⟨hbetween, haccess⟩ := List.forall_mem_append.mp hlatest
      have hpassed : access.supersedes = false := haccess access List.mem_cons_self
      have hsplit : before ++ read :: (between ++ [access])
          = (before ++ read :: between) ++ [access] := by simp
      rw [hsplit, waiting?_append, if_neg (by simp [hpassed]), ih hbetween, Option.filter_filter]
      simp [List.all_append, Bool.and_comm]

/-- The read that waits is behind some accesses and before others that let it wait. -/
theorem exists_of_waiting? {accesses : List Access} {read : Access}
    (h : waiting? accesses = some read) :
    ∃ before between, accesses = before ++ read :: between ∧ read.awaited?.isSome = true
      ∧ ∀ other ∈ between, other.supersedes = false ∧ read.completedBy other = false := by
  induction accesses with
  | nil => cases h
  | cons access later ih =>
      rw [waiting?] at h
      split at h
      case isTrue hwaits =>
          obtain rfl := Option.some.inj h
          obtain ⟨hawaited, hall⟩ := (Bool.and_eq_true _ _).mp hwaits
          refine ⟨[], later, rfl, hawaited, fun other hmem => ?_⟩
          simpa using List.all_eq_true.mp hall other hmem
      case isFalse =>
          obtain ⟨before, between, rfl, hread⟩ := ih h
          exact ⟨access :: before, between, rfl, hread⟩

/-- **The read that a field access completes, looking back**, is one that it completes across the
accesses between them. -/
theorem completed?_eq_some_iff {earlier : List Access} {access read : Access} :
    completed? earlier access = some read ↔
      ∃ before between, earlier = before ++ read :: between ∧ read.Completes between access := by
  constructor
  · intro h
    obtain ⟨hwaiting, hcompletes⟩ := Option.filter_eq_some_iff.mp h
    obtain ⟨before, between, hsplit, hawaited, hpassed⟩ := exists_of_waiting? hwaiting
    exact ⟨before, between, hsplit, hawaited, hpassed, hcompletes⟩
  · rintro ⟨before, between, rfl, h⟩
    have hall : (between.all fun other => !read.completedBy other) = true :=
      List.all_eq_true.mpr fun other hmem => by simp [(h.passed other hmem).2]
    rw [completed?, waiting?_of_latest before h.awaited fun other hmem => (h.passed other hmem).1,
      Option.filter_some, if_pos hall, Option.filter_some, if_pos h.completedBy]

/-! ## Completion on the way of the resolver -/

/-- Related values are there together. -/
theorem isSome_eq_of_rel {α β : Type} {r : α → β → Prop} {a? : Option α} {b? : Option β}
    (h : Option.Rel r a? b?) : a?.isSome = b?.isSome := by
  cases h <;> rfl

namespace ResolverState

/-- The state behind the first instructions of some code. -/
def behind (state : ResolverState) : (count : Nat) → List Instruction → ResolverState
  | 0, _ | _, [] => state
  | count + 1, ins :: rest => (state.advance ins rest).behind count rest

/-- **The invariant of a walk holds behind the first instructions**, with their accesses passed. -/
theorem Tracks.behind {state : ResolverState} {earlier : List Access} (h : state.Tracks earlier)
    {code : List Instruction} {front back : List Access}
    (hsplit : state.surroundings.accesses code = front ++ back) :
    (state.behind front.length code).Tracks (earlier ++ front) := by
  -- One instruction of the code is passed with each access.
  induction front generalizing state earlier code with
  | nil =>
      rw [List.append_nil]
      exact h
  | cons access front ih =>
      cases code with
      | nil => cases hsplit
      | cons ins rest =>
          rw [Surroundings.accesses, List.cons_append, List.cons.injEq] at hsplit
          obtain ⟨rfl, hrest⟩ := hsplit
          rw [← surroundings_advance] at hrest
          have hnext := ih (h.advance ins rest) hrest
          rwa [List.append_assoc] at hnext

/-- **The resolver chains a field access onto a read**: behind the read, which is the most recent
one, it meets the access and finds a pending read that the access completes. -/
structure Chains (state : ResolverState) (code : List Instruction) (before : List Access)
    (read : Access) (between : List Access) (access : Access) (after : List Access) : Prop where
  /-- The read and the access are among the accesses of the code. -/
  split : state.surroundings.accesses code = before ++ read :: between ++ access :: after
  /-- The read is one that may be completed. -/
  awaited : read.awaited?.isSome = true
  /-- No other read takes its place. -/
  latest : ∀ other ∈ between, other.supersedes = false
  /-- The access is one to a field with a constant key. -/
  keyed : access.field?.isSome = true
  /-- It completes the read that is pending. -/
  completes : ((state.behind (before ++ read :: between).length code).completed?
    access.instruction access.instruction.tableRegister).isSome = true

/-- **The resolver chains exactly the accesses that complete a read**, when it starts without a
pending one. -/
theorem chains_iff {state : ResolverState} (hstart : state.pending = none)
    {code : List Instruction} {before between after : List Access} {read access : Access} :
    state.Chains code before read between access after ↔
      state.surroundings.accesses code = before ++ read :: between ++ access :: after
        ∧ read.Completes between access := by
  have htracks : state.Tracks [] := ⟨by rw [hstart]; exact .none, .of_pending_eq_none hstart⟩
  -- What is pending in the state is what waits in the second pass.
  have hpending (hsplit : state.surroundings.accesses code
        = before ++ read :: between ++ access :: after) (hkeyed : access.field?.isSome = true) :
      ((state.behind (before ++ read :: between).length code).completed?
        access.instruction access.instruction.tableRegister).isSome
        = (LuaGlobals.completed? (before ++ read :: between) access).isSome := by
    have hrel := (htracks.behind hsplit).completed? access hkeyed
    rw [List.nil_append] at hrel
    exact isSome_eq_of_rel hrel
  constructor
  · intro h
    have hsome := h.completes
    rw [hpending h.split h.keyed, LuaGlobals.completed?,
      waiting?_of_latest before h.awaited h.latest] at hsome
    obtain ⟨other, hother⟩ := Option.isSome_iff_exists.mp hsome
    obtain ⟨hwaits, hcompletes⟩ := Option.filter_eq_some_iff.mp hother
    obtain ⟨hread, hall⟩ := Option.filter_eq_some_iff.mp hwaits
    obtain rfl := Option.some.inj hread
    refine ⟨h.split, h.awaited, fun other hmem => ⟨h.latest other hmem, ?_⟩, hcompletes⟩
    simpa using List.all_eq_true.mp hall other hmem
  · rintro ⟨hsplit, h⟩
    have hkeyed : access.field?.isSome = true := by
      by_contra hnone
      have hpasses := read.completedBy_of_field?_eq_none access (by simpa using hnone)
      rw [h.completedBy] at hpasses
      cases hpasses
    refine ⟨hsplit, h.awaited, fun other hmem => (h.passed other hmem).1, hkeyed, ?_⟩
    rw [hpending hsplit hkeyed, completed?_eq_some_iff.mpr ⟨before, between, rfl, h⟩]
    rfl

end ResolverState

/-! ## Registers -/

/-- Whether an instruction of a kind that the resolver tells apart gives a register a new value. -/
def Instruction.overwrites (ins : Instruction) (register : Option Int) : Bool :=
  match ins.kind with
  | .globalGet | .upvalueGet | .tableGet | .loadConstant | .call => ins.a == register
  | .globalSet | .tableSet | .ret | .retNone | .other => false

/-- An access is what its instruction does in some surroundings. -/
theorem Surroundings.exists_classify_of_mem {around : Surroundings} {code : List Instruction}
    {access : Access} (h : access ∈ around.accesses code) :
    ∃ (around : Surroundings) (rest : List Instruction),
      access.kind = around.classify access.instruction rest := by
  induction code generalizing around with
  | nil => cases h
  | cons ins rest ih =>
      rcases List.mem_cons.mp h with rfl | hlater
      · exact ⟨around, rest, rfl⟩
      · exact ih hlater

/-- An instruction that overwrites a register and is no reported read has no name to report, or
reads a field. -/
theorem Access.unrelated_or_tableGet {access : Access} {around : Surroundings}
    {rest : List Instruction} (hclass : access.kind = around.classify access.instruction rest)
    {register : Option Int} (hoverwrites : access.instruction.overwrites register = true)
    (hpassed : access.supersedes = false) :
    access.kind = .unrelated ∨ access.instruction.kind = .tableGet := by
  unfold Instruction.overwrites at hoverwrites
  unfold supersedes at hpassed
  unfold Surroundings.classify at hclass
  cases hkind : access.instruction.kind with
  | globalGet =>
      rw [hkind] at hclass
      dsimp only at hclass
      split at hclass
      · simp [hclass] at hpassed
      · cases hname : access.instruction.constant.bind
            (around.qualify? access.instruction access.instruction.b) with
        | none => exact .inl (by rw [hclass, hname]; rfl)
        | some name => simp [hclass, hname] at hpassed
  | upvalueGet =>
      rw [hkind] at hclass
      dsimp only at hclass
      cases hname : around.captured? access.instruction with
      | none => exact .inl (by rw [hclass, hname]; rfl)
      | some name => simp [hclass, hname] at hpassed
  | tableGet => exact .inr rfl
  | loadConstant | call =>
      rw [hkind] at hclass
      exact .inl hclass
  | globalSet | tableSet | ret | retNone | other => simp [hkind] at hoverwrites

/-! ## The account of chaining -/

/-- **Only a read that takes the place of an earlier one keeps a field access off its register.** In
the code of every function, entered in any state:

* the resolver chains a field access onto a read exactly if the access follows within the window, on
  the register of the read, and no access between them takes the place of the read or completes it;
* where an instruction between them overwrites the register, it is one without a name to report,
  such as a call or a loaded constant, or it reads a field;
* so a chained field access always finds the value of the read in the register exactly if, wherever
  the register is overwritten between a read and a field access in its window, some access between
  them takes the place of the read or completes it. -/
theorem chaining_sound_iff (state : ResolverState) (listing : FunctionListing) :
    let walk := state.enter listing
    let code := listing.instructions
    (∀ before read between access after,
        walk.Chains code before read between access after ↔
          walk.surroundings.accesses code = before ++ read :: between ++ access :: after
            ∧ read.Completes between access)
      ∧ (∀ before read between access after, walk.Chains code before read between access after →
          ∀ other ∈ between, other.instruction.overwrites read.instruction.a = true →
            other.kind = .unrelated ∨ other.instruction.kind = .tableGet)
      ∧ ((∀ before read between access after, walk.Chains code before read between access after →
            ∀ other ∈ between, other.instruction.overwrites read.instruction.a = false)
          ↔ ∀ before read between access after,
              walk.surroundings.accesses code = before ++ read :: between ++ access :: after →
              read.awaited?.isSome = true → read.completedBy access = true →
              (∃ other ∈ between, other.instruction.overwrites read.instruction.a = true) →
                ∃ other ∈ between, other.supersedes = true ∨ read.completedBy other = true) := by
  intro walk code
  have hchains {before between after : List Access} {read access : Access} :
      walk.Chains code before read between access after ↔
        walk.surroundings.accesses code = before ++ read :: between ++ access :: after
          ∧ read.Completes between access := ResolverState.chains_iff rfl
  refine ⟨fun before read between access after => hchains, ?_, ?_, ?_⟩
  · intro before read between access after h other hother hoverwrites
    have hmem : other ∈ walk.surroundings.accesses code := by
      rw [h.split]
      simp [hother]
    obtain ⟨around, rest, hclass⟩ := Surroundings.exists_classify_of_mem hmem
    exact Access.unrelated_or_tableGet hclass hoverwrites (h.latest other hother)
  · -- With no access between that ends the wait, the access would be chained.
    intro hsound before read between access after hsplit hawaited hcompleted hoverwritten
    by_contra hnone
    have hpassed (other : Access) (hmem : other ∈ between) :
        other.supersedes = false ∧ read.completedBy other = false := by
      have hopen := fun hends => hnone ⟨other, hmem, hends⟩
      simpa [not_or] using hopen
    obtain ⟨other, hother, hoverwrites⟩ := hoverwritten
    have hfalse := hsound before read between access after
      (hchains.mpr ⟨hsplit, hawaited, hpassed, hcompleted⟩) other hother
    rw [hoverwrites] at hfalse
    cases hfalse
  · intro hnoticed before read between access after hchain other hother
    obtain ⟨hsplit, h⟩ := hchains.mp hchain
    by_contra hoverwrites
    obtain ⟨ending, hmem, hends⟩ := hnoticed before read between access after hsplit h.awaited
      h.completedBy ⟨other, hother, by simpa using hoverwrites⟩
    obtain ⟨hlatest, hopen⟩ := h.passed ending hmem
    rcases hends with hsupersedes | hcompletes
    · simp [hlatest] at hsupersedes
    · simp [hopen] at hcompletes

/-- A listing that reads a field of what a call of a global returns. -/
def calledListing : String :=
  "main <u.lua:0,0>
0 params,
1 [1] GETGLOBAL 0 -1 ; print
2 [1] GETGLOBAL 1 -2 ; foo
3 [1] CALL 1 1 2
4 [1] GETTABLE 1 1 -3 ; \"bar\"
5 [1] CALL 0 2 1
6 [1] RETURN 0 1
"

/-- The one function of that listing. -/
def calledMain : FunctionListing :=
  { kind := .main
    source := "u.lua"
    lineDefined := 0
    instructions := [
      ⟨1, 1, "GETGLOBAL", some 0, some (-1), none, some "print", none⟩,
      ⟨2, 1, "GETGLOBAL", some 1, some (-2), none, some "foo", none⟩,
      ⟨3, 1, "CALL", some 1, some 1, some 2, none, none⟩,
      ⟨4, 1, "GETTABLE", some 1, some 1, some (-3), some "bar", none⟩,
      ⟨5, 1, "CALL", some 0, some 2, some 1, none, none⟩,
      ⟨6, 1, "RETURN", some 0, some 1, none, none, none⟩]
    scope := ⟨[], []⟩ }

/-- The field of the result is reported as one of the global, although the call has overwritten the
register. -/
theorem calledListing_chains_overwritten :
    ∃ report, analyzeListing calledListing = .ok report
      ∧ report.references = [⟨1, "print", false⟩, ⟨1, "foo.bar", false⟩]
      ∧ ∃ before read between access after, ∃ other ∈ between,
        ((ResolverState.start .empty).enter calledMain).Chains calledMain.instructions
            before read between access after
          ∧ other.instruction.overwrites read.instruction.a = true := by
  have hread : readFunctions (.ofText calledListing) = ([calledMain], none) := by
    rw [calledListing, ofText_ofList]
    decide +kernel
  have hanalyze : analyzeListing calledListing = .ok (resolveFunctions [calledMain]).report := by
    rw [analyzeListing, resolveListing, hread]
    rfl
  obtain ⟨hchains, -⟩ := chaining_sound_iff (.start .empty) calledMain
  refine ⟨_, hanalyze, by decide, _, _, [⟨⟨3, 1, "CALL", some 1, some 1, some 2, none, none⟩,
    .unrelated⟩], _, _, _, List.mem_singleton_self _, (hchains
      [⟨⟨1, 1, "GETGLOBAL", some 0, some (-1), none, some "print", none⟩, .read "print"⟩]
      ⟨⟨2, 1, "GETGLOBAL", some 1, some (-2), none, some "foo", none⟩, .read "foo"⟩ _
      ⟨⟨4, 1, "GETTABLE", some 1, some 1, some (-3), some "bar", none⟩, .field "bar" false none⟩
      [⟨⟨5, 1, "CALL", some 0, some 2, some 1, none, none⟩, .unrelated⟩,
        ⟨⟨6, 1, "RETURN", some 0, some 1, none, none, none⟩, .unrelated⟩]).mpr
      ⟨by decide, by decide, by decide, by decide⟩, by decide⟩

end LuaGlobals
