import LuaGlobals.Proofs.Keyed
import LuaGlobals.Proofs.Listing.Partition
import LuaGlobals.Proofs.Reference.Frame
import LuaGlobals.Proofs.Reference.Trail
import Mathlib.Data.List.Nodup

/-! # The locals that hold modules

The registry of known locals and the report are written side by side: by the look ahead to the local
that the main chunk returns, and by each call of `require` whose result a local receives.

* **`ReferenceReport.moduleLocals`** are the locals that a report tells, the returned one first.
* **`registersAlike_advance`**: a step adds one local to both sides, or none. For this a local must
  have a name, which `names_of_readFunctions` says of those of a listing.
* `Registered` is the invariant of a run: the registry has the locals that the report tells, each
  once, in order of first occurrence.
* **`registry_resolveListing`** puts the account of the registry together. -/

namespace LuaGlobals

/-- A local is known by name if its name is registered. -/
theorem KnownLocals.contains_iff_mem_names (known : KnownLocals) (name : String) :
    known.contains name = true ↔ name ∈ known.names := by
  rw [contains, lookup?, names, List.find?_isSome, List.mem_map]
  simp only [beq_iff_eq]

/-! ## Locals of a listing have names -/

/-- The name in a row is not empty. -/
theorem readNameAndRange?_named {text name : List Char} {range : Nat × Nat}
    (h : readNameAndRange? text = some (name, range)) : name ≠ [] := by
  cases text with
  | nil => exact absurd h (by simp [readNameAndRange?])
  | cons c rest =>
      rw [readNameAndRange?] at h
      split at h
      · cases h
      · split at h
        · cases h
          exact List.cons_ne_nil c []
        · obtain ⟨⟨later, range⟩, -, hname⟩ := Option.map_eq_some_iff.mp h
          cases hname
          exact List.cons_ne_nil c later

/-- **The local of a row has a name.** -/
theorem readLocalRow?_named {text : List Char} {row : LocalRow} (h : readLocalRow? text = some row) :
    row.name ≠ "" := by
  unfold readLocalRow? at h
  simp only [Option.bind_eq_bind, Option.bind_eq_some_iff, Option.pure_def, Option.some.injEq] at h
  obtain ⟨number, -, ⟨name, range⟩, hfound, rfl⟩ := h
  obtain ⟨blanks, -, hread⟩ := List.exists_of_findSome?_eq_some hfound
  simpa using readNameAndRange?_named hread

/-- A local in a register is that of a row. -/
theorem exists_row_of_mem_assignRegisters {earlier rows : List LocalRow} {slot : LocalSlot}
    (h : slot ∈ assignRegisters earlier rows) : ∃ row ∈ rows, slot.name = row.name := by
  induction rows generalizing earlier with
  | nil => cases h
  | cons row rest ih =>
      have hrest (hslot : slot ∈ assignRegisters (earlier ++ [row]) rest) :
          ∃ row' ∈ row :: rest, slot.name = row'.name := by
        obtain ⟨other, hother, hname⟩ := ih hslot
        exact ⟨other, List.mem_cons_of_mem row hother, hname⟩
      rw [assignRegisters] at h
      split at h
      · exact hrest h
      · rcases List.mem_cons.mp h with rfl | hslot
        · exact ⟨row, List.mem_cons_self, rfl⟩
        · exact hrest hslot

namespace FunctionScope

/-- The names of the locals. -/
def names (scope : FunctionScope) : List String :=
  scope.locals.map (·.name)

/-- Marking a local as known keeps its name. -/
@[simp] theorem names_markKnown (scope : FunctionScope) (index : Nat) :
    (scope.markKnown index).names = scope.names := by
  refine List.ext_getElem? fun place => ?_
  rw [names, names, markKnown, List.getElem?_map, List.getElem?_map, List.getElem?_modify]
  cases scope.locals[place]? with
  | none => rfl
  | some slot => split <;> rfl

/-- The locals of a function that is read from rows have names. -/
theorem names_ofRows (localRows upvalueRows : List (List Char)) :
    "" ∉ (ofRows localRows upvalueRows).names := by
  rw [names, List.mem_map]
  rintro ⟨slot, hslot, hname⟩
  obtain ⟨row, hrow, hsame⟩ := exists_row_of_mem_assignRegisters hslot
  obtain ⟨text, -, hread⟩ := List.mem_filterMap.mp hrow
  exact readLocalRow?_named hread (hsame ▸ hname)

end FunctionScope

/-- The locals of the functions of a listing have names. -/
theorem names_of_readFunctions {text : String} {functions : List FunctionListing}
    (h : readFunctions (.ofText text) = (functions, none)) :
    ∀ listing ∈ functions, "" ∉ listing.scope.names := by
  rw [ofText_eq, readFunctions_iff_laidOut] at h
  obtain ⟨blocks, -, -, rfl, -⟩ := h
  intro listing hlisting
  obtain ⟨block, -, rfl⟩ := List.mem_map.mp hlisting
  exact FunctionScope.names_ofRows _ _

/-- Looking for the local that the main chunk returns keeps the names of all locals. -/
theorem names_of_mem_prepare {functions : List FunctionListing}
    (h : ∀ listing ∈ functions, "" ∉ listing.scope.names) :
    ∀ listing ∈ (prepare functions).2, "" ∉ listing.scope.names := by
  cases functions with
  | nil => exact h
  | cons main rest =>
      obtain ⟨hmain, hrest⟩ := List.forall_mem_cons.mp h
      dsimp only [prepare]
      cases main.returnedLocal? with
      | none => exact h
      | some index =>
          dsimp only [Surroundings.register]
          refine List.forall_mem_cons.mpr ⟨?_, hrest⟩
          cases main.scope.locals[index]? with
          | none => exact hmain
          | some slot => rwa [FunctionScope.names_markKnown]

/-! ## What a move registers -/

/-- The locals that a report tells to hold modules: the one that the main chunk returns, then those
that receive required modules, in order. -/
def ReferenceReport.moduleLocals (report : ReferenceReport) : List String :=
  report.remark.simpleModule.toList ++ report.aliases

/-- One more requirement adds its receiver, unless that has no name. -/
theorem ReferenceReport.moduleLocals_append {before after : ReferenceReport}
    {requirement? : Option Requirement}
    (hrequirements : after.requirements = before.requirements ++ requirement?.toList)
    (hsimple : after.remark.simpleModule = before.remark.simpleModule) :
    after.moduleLocals = before.moduleLocals
      ++ ((requirement?.bind (·.receiver)).filter (· != "")).toList := by
  rw [moduleLocals, moduleLocals, aliases, aliases, hsimple, hrequirements, List.filterMap_append,
    List.filter_append, ← List.append_assoc]
  cases requirement? with
  | none => rfl
  | some requirement =>
      cases hreceiver : requirement.receiver with
      | none => simp [hreceiver]
      | some name => by_cases hname : name = "" <;> simp [hreceiver, hname, Option.filter]

namespace ResolverState

variable {functions : List FunctionListing} {before after : ResolverState}

/-- The registry and the report have one more local, or both stay as they are. -/
def RegistersAlike (before after : ResolverState) : Prop :=
  after.report.moduleLocals = before.report.moduleLocals ∧ after.known = before.known
    ∨ ∃ slot : LocalSlot, after.report.moduleLocals = before.report.moduleLocals ++ [slot.name]
      ∧ after.known = before.known.register slot

/-- **A step registers the local that its report tells**, and keeps the names of the locals of the
function. -/
theorem registersAlike_advance {state : ResolverState} (h : "" ∉ state.scope.names)
    (ins : Instruction) (rest : List Instruction) :
    state.RegistersAlike (state.advance ins rest)
      ∧ (state.advance ins rest).scope.names = state.scope.names := by
  have hrecords := records_advance state ins rest
  have hsimple : (state.advance ins rest).report.remark.simpleModule
      = state.report.remark.simpleModule := by
    rw [hrecords.remark]
    split <;> rfl
  have hlocals := ReferenceReport.moduleLocals_append hrecords.requirements hsimple
  have haround := surroundings_advance state ins rest
  -- The local that the report tells and the one that becomes known are both the receiver.
  rcases state.surroundings.next_cases ins rest with
    ⟨hnone, hnext⟩ | ⟨index, slot, hslot, hsome, hnext⟩
  · rw [hnone] at hlocals
    rw [hnext] at haround
    exact ⟨.inl ⟨hlocals.trans (List.append_nil _), congrArg (·.known) haround⟩,
      congrArg (·.scope.names) haround⟩
  · have hname : slot.name ≠ "" := fun hempty =>
      h (hempty ▸ List.mem_map_of_mem (List.mem_of_getElem? hslot))
    rw [hsome, Option.filter_some_pos (by simpa using hname)] at hlocals
    rw [hnext] at haround
    have hscope : (state.advance ins rest).scope = state.scope.markKnown index :=
      congrArg (·.scope) haround
    exact ⟨.inr ⟨slot, hlocals, congrArg (·.known) haround⟩,
      by rw [hscope, FunctionScope.names_markKnown]⟩

/-! ## The invariant of a run -/

/-- The registry has the locals that the report tells. -/
structure Registered (state : ResolverState) : Prop where
  /-- The locals of the function at hand have names. -/
  named : "" ∉ state.scope.names
  /-- The names are those of the report, each once, in order of first occurrence. -/
  names : state.known.names = state.report.moduleLocals.eraseDups

/-- Telling and registering the same local keeps the names the same. -/
theorem RegistersAlike.names (h : before.RegistersAlike after)
    (hnames : before.known.names = before.report.moduleLocals.eraseDups) :
    after.known.names = after.report.moduleLocals.eraseDups := by
  rcases h with ⟨hlocals, hknown⟩ | ⟨slot, hlocals, hknown⟩
  · rw [hlocals, hknown, hnames]
  · rw [hlocals, hknown, KnownLocals.names_register, eraseDups_concat, hnames]

/-- **A move keeps the registry in step with the report.** -/
theorem Registered.move (h : before.Registered) (hmove : Move functions before after)
    (hfunctions : ∀ listing ∈ functions, "" ∉ listing.scope.names) : after.Registered := by
  cases hmove with
  | enter listing hlisting => exact ⟨hfunctions listing hlisting, h.names⟩
  | leave => exact ⟨h.named, h.names⟩
  | advance ins rest =>
      obtain ⟨halike, hscope⟩ := registersAlike_advance h.named ins rest
      exact ⟨hscope ▸ h.named, halike.names h.names⟩

/-- **The registry only grows.** -/
theorem Move.names_prefix (h : Move functions before after) :
    before.known.names <+: after.known.names := by
  cases h with
  | enter | leave => exact List.prefix_rfl
  | advance ins rest =>
      have hknown : (before.advance ins rest).known = (before.surroundings.next ins rest).known :=
        congrArg (·.known) (surroundings_advance before ins rest)
      rw [hknown]
      exact before.surroundings.names_prefix_next ins rest

end ResolverState

/-- The registry has the local that the main chunk returns before the walk over a unit. -/
theorem registered_preparedState {functions : List FunctionListing} :
    (preparedState functions).Registered := by
  cases functions with
  | nil => exact ⟨List.not_mem_nil, rfl⟩
  | cons main rest =>
      dsimp only [preparedState, ResolverState.detectSimpleModule]
      cases main.returnedLocal? with
      | none => exact ⟨List.not_mem_nil, rfl⟩
      | some index =>
          dsimp only
          cases main.scope.locals[index]? <;> exact ⟨List.not_mem_nil, rfl⟩

/-! ## The account of the registry -/

/-- The registry is in step with the report all along the trail of a unit whose locals have names. -/
theorem registered_of_mem_resolverTrail {functions : List FunctionListing}
    (h : ∀ listing ∈ functions, "" ∉ listing.scope.names) :
    ∀ state ∈ resolverTrail functions, state.Registered := by
  have hchain := isChain_move_resolverTrail functions
  obtain ⟨later, hlater⟩ := resolverTrail_eq_cons functions
  rw [hlater] at hchain ⊢
  exact hchain.induction ResolverState.Registered _
    (fun before after hmove hbefore => hbefore.move hmove (names_of_mem_prepare h))
    fun _ => registered_preparedState

/-- **The registry has exactly the locals that hold modules.** When a listing resolves:

* the known names are the local that the main chunk returns, if there is one, then the locals that
  receive required modules, each once, in order of first occurrence;
* so a name is known exactly if it is that of one of these locals;
* the same holds of the registry and the report in each state that resolving the listing comes by,
  and from each state to the next the registry only grows. -/
theorem registry_resolveListing {text : String} {state : ResolverState}
    (h : resolveListing text = .ok state) :
    state.known.names = state.report.moduleLocals.eraseDups
      ∧ state.known.names.Nodup
      ∧ (∀ name, state.known.contains name = true ↔
        state.report.remark.simpleModule = some name ∨ name ∈ state.report.aliases)
      ∧ ∃ functions, readFunctions (.ofText text) = (functions, none)
        ∧ let states := .start .empty :: resolverTrail functions
          states.getLast? = some state
          ∧ (∀ passed ∈ states, passed.known.names = passed.report.moduleLocals.eraseDups)
          ∧ states.IsChain fun before after => before.known.names <+: after.known.names := by
  unfold resolveListing at h
  split at h
  · cases h
  · rename_i functions hread
    obtain rfl := Except.ok.inj h
    have hregistered := registered_of_mem_resolverTrail (names_of_readFunctions hread)
    have hlast : (resolverTrail functions).getLast? = some (resolveFunctions functions) := by
      rw [resolverTrail, ResolverState.getLast?_trail, resolveFunctions_eq_foldl]
    have hnames : (resolveFunctions functions).known.names
        = (resolveFunctions functions).report.moduleLocals.eraseDups :=
      (hregistered _ (List.mem_of_getLast? hlast)).names
    refine ⟨hnames, ?_, fun name => ?_, functions, hread, ?_, ?_, ?_⟩
    · rw [hnames]
      exact nodup_eraseDups _
    · rw [KnownLocals.contains_iff_mem_names, hnames, List.mem_eraseDups,
        ReferenceReport.moduleLocals, List.mem_append, Option.mem_toList]
    · rw [List.getLast?_cons, hlast]
      rfl
    · exact List.forall_mem_cons.mpr ⟨rfl, fun passed hpassed => (hregistered passed hpassed).names⟩
    · have hchain := isChain_move_resolverTrail functions
      obtain ⟨later, hlater⟩ := resolverTrail_eq_cons functions
      rw [hlater] at hchain ⊢
      exact .cons_cons List.nil_prefix (hchain.imp fun _ _ hmove => hmove.names_prefix)

/-- A listing whose main chunk returns the local that receives a required module. -/
def returningListing : String :=
  "main <u.lua:0,0>
0 params,
1 [1] GETGLOBAL 0 -1 ; require
2 [1] LOADK 1 -2 ; \"x\"
3 [1] CALL 0 2 2
4 [2] RETURN 0 2
5 [2] RETURN 0 1
locals (1)
0 t 4 6
"

/-- The one function of that listing. -/
def returningMain : FunctionListing :=
  { kind := .main
    source := "u.lua"
    lineDefined := 0
    instructions := [
      ⟨1, 1, "GETGLOBAL", some 0, some (-1), none, some "require", none⟩,
      ⟨2, 1, "LOADK", some 1, some (-2), none, some "x", none⟩,
      ⟨3, 1, "CALL", some 0, some 2, some 2, none, none⟩,
      ⟨4, 2, "RETURN", some 0, some 2, none, none, none⟩,
      ⟨5, 2, "RETURN", some 0, some 1, none, none, none⟩]
    scope := ⟨[⟨0, "t", 3, 6, false⟩], []⟩ }

/-- The local is registered before the walk and again at the call, and is one known name. -/
theorem returningListing_known_names :
    ∃ state, resolveListing returningListing = .ok state
      ∧ state.report.moduleLocals = ["t", "t"] ∧ state.known.names = ["t"] := by
  have hread : readFunctions (.ofText returningListing) = ([returningMain], none) := by
    decide +kernel
  have hresolves : resolveListing returningListing = .ok (resolveFunctions [returningMain]) := by
    rw [resolveListing, hread]
  exact ⟨_, hresolves, by decide, (registry_resolveListing hresolves).1.trans (by decide)⟩

end LuaGlobals
