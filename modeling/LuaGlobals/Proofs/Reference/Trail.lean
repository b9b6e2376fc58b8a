import LuaGlobals.Proofs.Reference.TwoPass

/-! # The states of a resolver run

* **`resolverTrail`** lists the states that resolving a unit comes by, from the state before the first
  function to the last.
* **`Move`** is what takes a run from one state to the next; `isChain_move`: a trail is made of moves.
* **`ReferenceStep`** says how the references of neighbouring states may differ: a reference comes
  last, or a read that no field access has completed takes a key.
* **`renamesAt`** counts how often the reference at a place changes; `renamesAt_le_openings` bounds
  the count by what the first state still allows.
* **`resolver_eq_two_passes`** puts the account of the resolver together. -/

namespace LuaGlobals

/-! ## The trail of a run -/

namespace ResolverState

/-- The states that a walk over code comes by, where the first `used` instructions are used up. -/
def codeTrail (state : ResolverState) : (used : Nat) → List Instruction → List ResolverState
  | _, [] => []
  | used + 1, _ :: rest => state.codeTrail used rest
  | 0, ins :: rest =>
    (state.step ins rest).1 :: (state.step ins rest).1.codeTrail (state.step ins rest).2 rest

/-- The states that a walk over functions comes by, from the given one to the last. -/
def trail (state : ResolverState) : List FunctionListing → List ResolverState
  | [] => [state]
  | listing :: rest =>
    (state :: state.enter listing :: (state.enter listing).codeTrail 0 listing.instructions)
      ++ (state.walk listing).trail rest

end ResolverState

/-- The states that resolving a unit comes by. -/
def resolverTrail (functions : List FunctionListing) : List ResolverState :=
  (preparedState functions).trail (prepare functions).2

namespace ResolverState

/-- A trail starts with the given state. -/
theorem trail_eq_cons (state : ResolverState) (functions : List FunctionListing) :
    ∃ later, state.trail functions = state :: later := by
  cases functions with
  | nil => exact ⟨[], rfl⟩
  | cons listing rest => exact ⟨_, rfl⟩

/-- A trail ends with the state behind all functions. -/
theorem getLast?_trail (state : ResolverState) (functions : List FunctionListing) :
    (state.trail functions).getLast? = some (functions.foldl walk state) := by
  induction functions generalizing state with
  | nil => rfl
  | cons listing rest ih =>
      rw [trail, List.getLast?_append, ih, List.foldl_cons]
      rfl

end ResolverState

/-! ## Moves -/

namespace ResolverState

/-- The state behind the code of a function, where no read is pending. -/
def leave (state : ResolverState) : ResolverState :=
  { state with pending := none, inOutermost := false }

/-- What takes a run through the given functions from one state to the next. -/
inductive Move (functions : List FunctionListing) (before : ResolverState) :
    ResolverState → Prop where
  /-- A function is entered. -/
  | enter (listing : FunctionListing) (h : listing ∈ functions) :
    Move functions before (before.enter listing)
  /-- An instruction is stepped over. -/
  | advance (ins : Instruction) (rest : List Instruction) :
    Move functions before (before.advance ins rest)
  /-- A function is left. -/
  | leave : Move functions before before.leave

/-- A walk over code moves by its instructions, up to what follows the walk. -/
theorem isChain_move_codeTrail {functions : List FunctionListing} (state : ResolverState)
    (used : Nat) (code : List Instruction) (later : List ResolverState)
    (hlater : (state.walkCode used code :: later).IsChain (Move functions)) :
    (state :: state.codeTrail used code ++ later).IsChain (Move functions) := by
  induction code generalizing state used with
  | nil => cases used <;> exact hlater
  | cons ins rest ih =>
      cases used with
      | succ used => exact ih state used hlater
      | zero => exact .cons_cons (.advance ins rest) (ih _ _ hlater)

/-- **The states of a run are moves apart.** -/
theorem isChain_move (state : ResolverState) (functions : List FunctionListing) :
    (state.trail functions).IsChain (Move functions) := by
  suffices h : ∀ part ⊆ functions, (state.trail part).IsChain (Move functions) from
    h functions (List.Subset.refl functions)
  intro part hpart
  induction part generalizing state with
  | nil => exact .singleton state
  | cons listing rest ih =>
      obtain ⟨hlisting, hrest⟩ := List.cons_subset.mp hpart
      obtain ⟨later, hlater⟩ := trail_eq_cons (state.walk listing) rest
      have hwalk := ih (state.walk listing) hrest
      rw [trail, hlater]
      rw [hlater] at hwalk
      exact .cons_cons (.enter listing hlisting)
        (isChain_move_codeTrail _ 0 _ _ (.cons_cons .leave hwalk))

end ResolverState

/-- The states that resolving a unit comes by are moves apart. -/
theorem isChain_move_resolverTrail (functions : List FunctionListing) :
    (resolverTrail functions).IsChain (ResolverState.Move (prepare functions).2) :=
  (preparedState functions).isChain_move (prepare functions).2

/-- They start with the state before the walk. -/
theorem resolverTrail_eq_cons (functions : List FunctionListing) :
    ∃ later, resolverTrail functions = preparedState functions :: later :=
  (preparedState functions).trail_eq_cons (prepare functions).2

/-! ## How references change -/

/-- How the references of neighbouring states may differ. -/
inductive ReferenceStep (references : List Reference) : List Reference → Prop where
  /-- They are the same. -/
  | keep : ReferenceStep references references
  /-- One more comes last. -/
  | add (ref : Reference) : ReferenceStep references (references ++ [ref])
  /-- A read at some place takes the key and the mode of a field access and keeps its line. -/
  | rename (place : Nat) (line : Int) (name key : String) (write : Bool)
      (h : references[place]? = some { line, name, write := false }) :
      ReferenceStep references
        (references.set place { line, name := Text.member name key, write })

/-- Whether the reference at a place changes between two states, as a count. -/
def changesAt (place : Nat) (before after : ResolverState) : Nat :=
  if place < before.report.references.length
    ∧ after.report.references[place]? ≠ before.report.references[place]? then 1 else 0

/-- How often the reference at a place changes on a trail. -/
def renamesAt (place : Nat) : List ResolverState → Nat
  | before :: after :: later => changesAt place before after + renamesAt place (after :: later)
  | _ => 0

namespace ResolverState

/-- The place of the reference of the pending read. -/
def pendingPlace? (state : ResolverState) : Option Nat :=
  state.pending.bind (·.reference)

/-- How often the reference at a place may still change: once if it is yet to come or belongs to
the pending read. -/
def openings (state : ResolverState) (place : Nat) : Nat :=
  if state.report.references.length ≤ place ∨ state.pendingPlace? = some place then 1 else 0

/-- What happens between neighbouring states: at most one edit, and each change of a reference is
one that the earlier state still allowed. -/
structure Progress (before after : ResolverState) : Prop where
  /-- The references differ by at most one edit. -/
  references : ReferenceStep before.report.references after.report.references
  /-- A change uses up the one opening of its place. -/
  openings : ∀ place, changesAt place before after + after.openings place ≤ before.openings place

variable {before after : ResolverState}

/-- References that come last change no earlier one; the pending read may be the last of them. -/
theorem openings_of_append (added : List Reference)
    (hreferences : after.report.references = before.report.references ++ added)
    (hpending : ∀ place, after.pendingPlace? = some place →
      before.pendingPlace? = some place ∨ before.report.references.length ≤ place)
    (place : Nat) :
    changesAt place before after + after.openings place ≤ before.openings place := by
  have hchanges : changesAt place before after = 0 := by
    rw [changesAt, if_neg]
    rintro ⟨hlt, hne⟩
    exact hne (by rw [hreferences, List.getElem?_append_left hlt])
  rw [hchanges, Nat.zero_add]
  unfold openings
  split
  · rename_i hopen
    have hbefore : before.report.references.length ≤ place ∨ before.pendingPlace? = some place := by
      rcases hopen with hlength | hplace
      · rw [hreferences, List.length_append] at hlength
        exact .inl (by omega)
      · exact (hpending place hplace).symm
    rw [if_pos hbefore]
  · exact Nat.zero_le _

/-- Renaming the reference of the pending read closes its place. -/
theorem openings_of_set {pendingPlace : Nat} (ref : Reference)
    (hbefore : before.pendingPlace? = some pendingPlace)
    (hlt : pendingPlace < before.report.references.length)
    (hreferences : after.report.references = before.report.references.set pendingPlace ref)
    (hafter : after.pending = none) (place : Nat) :
    changesAt place before after + after.openings place ≤ before.openings place := by
  have hnone : after.pendingPlace? = none := by rw [pendingPlace?, hafter]; rfl
  have hlength : after.report.references.length = before.report.references.length := by
    rw [hreferences, List.length_set]
  unfold openings
  rw [hlength, hnone, hbefore]
  by_cases hplace : pendingPlace = place
  · subst hplace
    rw [if_neg (by simp; omega), if_pos (.inr rfl), changesAt]
    split <;> omega
  · have hchanges : changesAt place before after = 0 := by
      rw [changesAt, if_neg]
      rintro ⟨-, hne⟩
      exact hne (by rw [hreferences, List.getElem?_set_ne hplace])
    rw [hchanges]
    by_cases hlate : before.report.references.length ≤ place
    · rw [if_pos (.inl hlate), if_pos (.inl hlate)]
    · rw [if_neg (by simpa using hlate), if_neg (by simp [hplace]; omega)]

/-- Nothing happens to the references where no read stays pending that was not pending before. -/
theorem Progress.of_references_eq
    (hreferences : after.report.references = before.report.references)
    (hpending : ∀ place, after.pendingPlace? = some place → before.pendingPlace? = some place) :
    before.Progress after where
  references := by rw [hreferences]; exact .keep
  openings := openings_of_append [] (by rw [hreferences, List.append_nil])
    fun place hplace => .inl (hpending place hplace)

/-- One reference comes last, and the pending read is an earlier one or the new one. -/
theorem Progress.of_add (ref : Reference)
    (hreferences : after.report.references = before.report.references ++ [ref])
    (hpending : ∀ place, after.pendingPlace? = some place →
      before.pendingPlace? = some place ∨ before.report.references.length ≤ place) :
    before.Progress after where
  references := by rw [hreferences]; exact .add ref
  openings := openings_of_append [ref] hreferences hpending

/-- **One step makes one change** that the state before it allowed. -/
theorem Backed.progress_advance {state : ResolverState} (h : state.Backed) (ins : Instruction)
    (rest : List Instruction) : state.Progress (state.advance ins rest) := by
  have hreferences := references_advance state ins rest
  have hpending := ResolverState.pending_advance state ins rest
  rw [edit] at hreferences
  rw [pendingAfter] at hpending
  cases hclass : state.surroundings.classify ins rest with
  | read name =>
      rw [hclass] at hreferences hpending
      refine .of_add _ hreferences fun place hplace => .inr ?_
      rw [pendingPlace?, hpending] at hplace
      exact (Option.some.inj hplace).le
  | load name =>
      rw [hclass] at hreferences hpending
      refine .of_references_eq hreferences fun place hplace => ?_
      rw [pendingPlace?, hpending] at hplace
      exact absurd hplace (by simp [pendingRead])
  | require =>
      rw [hclass] at hreferences hpending
      refine .of_add _ hreferences fun place hplace => ?_
      rw [pendingPlace?, hpending] at hplace
      exact absurd hplace (by simp)
  | assign name =>
      rw [hclass] at hreferences hpending
      exact .of_add _ hreferences fun place hplace =>
        .inl (by rwa [pendingPlace?, hpending] at hplace)
  | unrelated =>
      rw [hclass] at hreferences hpending
      exact .of_references_eq hreferences fun place hplace =>
        by rwa [pendingPlace?, hpending] at hplace
  | field key write holder? =>
      rw [hclass] at hreferences hpending
      dsimp only at hreferences hpending
      cases hcompleted : state.completed? ins ins.tableRegister with
      | none =>
          rw [hcompleted] at hreferences hpending
          have hsame (place : Nat) (hplace : (state.advance ins rest).pendingPlace? = some place) :
              state.pendingPlace? = some place := by
            rwa [pendingPlace?, hpending] at hplace
          cases holder? with
          | none => exact .of_references_eq hreferences hsame
          | some holder => exact .of_add _ hreferences fun place hplace => .inl (hsame place hplace)
      | some pending =>
          rw [hcompleted] at hreferences hpending
          dsimp only at hreferences
          obtain ⟨hstate, -⟩ := Option.filter_eq_some_iff.mp hcompleted
          cases hplace : pending.reference with
          | none =>
              rw [hplace] at hreferences
              refine .of_add _ hreferences fun place hafter => ?_
              rw [pendingPlace?, hpending] at hafter
              exact absurd hafter (by simp)
          | some place =>
              rw [hplace] at hreferences
              have hbacked := h pending hstate place hplace
              have hbefore : state.pendingPlace? = some place := by
                rw [pendingPlace?, hstate]
                exact hplace
              obtain ⟨hlt, -⟩ := List.getElem?_eq_some_iff.mp hbacked
              exact ⟨hreferences ▸ .rename place _ _ key write hbacked,
                openings_of_set _ hbefore hlt hreferences hpending⟩

/-! ## Whole trails -/

/-- Leaving a function changes no reference and leaves no read pending. -/
theorem progress_leave (state : ResolverState) : state.Progress state.leave :=
  .of_references_eq rfl fun place hplace => absurd hplace (by simp [pendingPlace?, leave])

/-- So does entering one. -/
theorem progress_enter (state : ResolverState) (listing : FunctionListing) :
    state.Progress (state.enter listing) :=
  .of_references_eq rfl fun place hplace => absurd hplace (by simp [pendingPlace?, enter])

/-- The pending read is backed by its reference behind each move. -/
theorem Backed.move {functions : List FunctionListing} (h : before.Backed)
    (hmove : Move functions before after) : after.Backed := by
  cases hmove with
  | enter | leave => exact .of_pending_eq_none rfl
  | advance ins rest => exact h.advance ins rest

/-- **A move makes one change** that the state before it allowed. -/
theorem Backed.progress_move {functions : List FunctionListing} (h : before.Backed)
    (hmove : Move functions before after) : before.Progress after := by
  cases hmove with
  | enter listing => exact before.progress_enter listing
  | advance ins rest => exact h.progress_advance ins rest
  | leave => exact before.progress_leave

/-- **All states of a run progress one by one.** -/
theorem isChain_trail (state : ResolverState) (functions : List FunctionListing) :
    (state.trail functions).IsChain Progress := by
  have hmoves := isChain_move state functions
  cases functions with
  | nil => exact .singleton state
  | cons listing rest =>
      -- Whatever is pending in the first state, nothing is once a function is entered.
      obtain ⟨-, hmoves⟩ := List.isChain_cons_cons.mp hmoves
      have hbacked := hmoves.induction Backed _ (fun _ _ hmove h => h.move hmove)
        fun _ => .of_pending_eq_none rfl
      exact .cons_cons (state.progress_enter listing)
        (hmoves.imp_of_mem_imp fun before _ hmem _ hmove => (hbacked before hmem).progress_move hmove)

/-- The reference at a place changes no more often than the first state of a trail allows. -/
theorem renamesAt_le_openings (place : Nat) (state : ResolverState)
    (later : List ResolverState) (h : (state :: later).IsChain Progress) :
    renamesAt place (state :: later) ≤ state.openings place := by
  induction later generalizing state with
  | nil => exact Nat.zero_le _
  | cons after later ih =>
      obtain ⟨hprogress, hchain⟩ := List.isChain_cons_cons.mp h
      calc renamesAt place (state :: after :: later)
          = changesAt place state after + renamesAt place (after :: later) := rfl
        _ ≤ changesAt place state after + after.openings place :=
            Nat.add_le_add_left (ih after hchain) _
        _ ≤ state.openings place := hprogress.openings place

end ResolverState

/-- No reference of a unit changes twice. -/
theorem renamesAt_resolverTrail_le_one (place : Nat) (functions : List FunctionListing) :
    renamesAt place (resolverTrail functions) ≤ 1 := by
  have hchain : (resolverTrail functions).IsChain ResolverState.Progress :=
    (preparedState functions).isChain_trail (prepare functions).2
  obtain ⟨later, hlater⟩ := resolverTrail_eq_cons functions
  rw [hlater] at hchain ⊢
  refine (ResolverState.renamesAt_le_openings place _ later hchain).trans ?_
  unfold ResolverState.openings
  split <;> omega

/-! ## The account of the resolver -/

/-- **Resolving a unit in one pass, with places into a growing list, is the same as classifying its
instructions and naming them by looking ahead.** For every list of functions:

* the references found are the ones of the two passes: in the order of the instructions, one for
  each read or assignment of a global or of a field of a captured module, one for each field access
  that completes the load of a captured module, and one for each field access on a known local that
  completes nothing; a field access that completes a read of a global adds none and gives its key
  and mode to the reference of that read;
* that list is reached by a run in which each state adds one reference, or gives a key to a read
  that had none, or leaves all references as they are;
* no reference changes twice;
* the instructions that a step passes over, behind a read of `require`, would have changed nothing. -/
theorem resolver_eq_two_passes (functions : List FunctionListing) :
    (resolveFunctions functions).report.references = expectedReferences functions
      ∧ (resolverTrail functions).getLast? = some (resolveFunctions functions)
      ∧ (resolverTrail functions).IsChain (fun before after =>
          ReferenceStep before.report.references after.report.references)
      ∧ (∀ place, renamesAt place (resolverTrail functions) ≤ 1)
      ∧ ∀ (state : ResolverState) (ins : Instruction) (rest : List Instruction),
          ∀ passed ∈ rest.take (state.step ins rest).2,
          ∀ (other : ResolverState) (later : List Instruction),
            other.step passed later = (other, 0) := by
  refine ⟨references_resolveFunctions functions, ?_, ?_, ?_, ?_⟩
  · rw [resolverTrail, ResolverState.getLast?_trail, resolveFunctions_eq_foldl]
  · exact (ResolverState.isChain_trail _ _).imp fun _ _ hprogress => hprogress.references
  · exact fun place => renamesAt_resolverTrail_le_one place functions
  · intro state ins rest passed hmem other later
    exact ResolverState.step_of_inert (state.inert_of_mem_take ins rest passed hmem) other later

/-- A main chunk that requires a module. -/
def requiringMain : FunctionListing :=
  { kind := .main
    source := "u.lua"
    lineDefined := 0
    instructions := [
      ⟨1, 1, "GETGLOBAL", some 0, some (-1), none, some "require", none⟩,
      ⟨2, 1, "LOADK", some 1, some (-2), none, some "x", none⟩,
      ⟨3, 1, "CALL", some 0, some 2, some 2, none, none⟩]
    scope := ⟨[], []⟩ }

/-- The load behind a read of `require` is passed over, and would have changed nothing. -/
theorem requiringMain_passes_over_load :
    let state := ResolverState.start .empty
    let load : Instruction := ⟨2, 1, "LOADK", some 1, some (-2), none, some "x", none⟩
    let read : Instruction := ⟨1, 1, "GETGLOBAL", some 0, some (-1), none, some "require", none⟩
    (resolveFunctions [requiringMain]).report.references = expectedReferences [requiringMain]
      ∧ load ∈ (requiringMain.instructions.drop 1).take
          (state.step read (requiringMain.instructions.drop 1)).2
      ∧ state.step load [] = (state, 0) := by
  intro state load read
  have haccount := resolver_eq_two_passes [requiringMain]
  have hpassed : load ∈ (requiringMain.instructions.drop 1).take
      (state.step read (requiringMain.instructions.drop 1)).2 := by decide
  exact ⟨haccount.1, hpassed, haccount.2.2.2.2 state read _ load hpassed state []⟩

end LuaGlobals
