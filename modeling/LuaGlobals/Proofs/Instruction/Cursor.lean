import LuaGlobals.Instruction.Cursor
import LuaGlobals.Reference.Resolver
import Mathlib.Logic.Function.Iterate

/-! # Looking ahead with a cursor

A cursor may be asked for its next item, to look ahead and to skip instructions, in any order. It
keeps a position and whether it reported the boundary; what counts is the row of items that it has
still to hand out.

* `InstructionCursor.ahead` and `InstructionCursor.pending` are the instructions and the items to
  come, and `InstructionCursor.Sound` is the invariant of a cursor.
* **`InstructionCursor.Sound.peek?_eq`**, **`InstructionCursor.Sound.next`** and
  **`InstructionCursor.Sound.ahead_skip`**: what one call answers and leaves.
* **`InstructionCursor.Sound.handedOut_eq`**: what any row of calls hands out.
* **`lookahead_predicts_iteration`**: looks, skips and the items handed out agree.
* `ResolverState.walkCode_ahead`: the walk over a function, as a cursor leads it. -/

namespace LuaGlobals

/-- The instruction that an item is, if it is one. -/
def CursorItem.instruction? : CursorItem → Option Instruction
  | .instruction ins => some ins
  | .boundary | .finished => none

namespace InstructionCursor

variable {cursor : InstructionCursor}

/-! ## The items to come -/

/-- The instructions that lie ahead of a cursor. -/
def ahead (cursor : InstructionCursor) : List Instruction :=
  cursor.instructions.drop cursor.position.toNat

/-- The items that a cursor has still to hand out: the instructions ahead, then the boundary unless
it was reported. -/
def pending (cursor : InstructionCursor) : List CursorItem :=
  cursor.ahead.map .instruction ++ if cursor.done then [] else [.boundary]

/-- **A cursor in a function** stands at one of the instructions or at the end, and at the end when
the boundary was reported. -/
structure Sound (cursor : InstructionCursor) : Prop where
  /-- It stands at the first instruction or behind. -/
  nonneg : 0 ≤ cursor.position
  /-- It stands at the end or before. -/
  le_size : cursor.position ≤ cursor.size
  /-- The boundary is reported at the end. -/
  at_end : cursor.done = true → cursor.position = cursor.size

/-- A new cursor stands in its function. -/
theorem sound_start (instructions : List Instruction) : (start instructions).Sound where
  nonneg := Int.le_refl 0
  le_size := Int.natCast_nonneg _
  at_end h := nomatch h

/-- All instructions lie ahead of a new cursor. -/
@[simp] theorem ahead_start (instructions : List Instruction) :
    (start instructions).ahead = instructions := rfl

/-- Reporting the boundary changes nothing that lies ahead. -/
@[simp] theorem ahead_report (cursor : InstructionCursor) :
    ahead { cursor with done := true } = cursor.ahead := rfl

/-- Nothing lies ahead of a cursor exactly at the end. -/
theorem Sound.ahead_eq_nil_iff (h : cursor.Sound) :
    cursor.ahead = [] ↔ cursor.position = cursor.size := by
  have hle := h.le_size
  have hnonneg := h.nonneg
  rw [ahead, List.drop_eq_nil_iff, size] at *
  omega

/-- The boundary is to come exactly once, or was reported. -/
theorem count_boundary_pending (cursor : InstructionCursor) :
    cursor.pending.count .boundary = if cursor.done then 0 else 1 := by
  have hahead : (cursor.ahead.map CursorItem.instruction).count .boundary = 0 :=
    List.count_eq_zero.mpr (by simp)
  rw [pending, List.count_append, hahead, Nat.zero_add]
  split <;> rfl

/-- A cursor never has the end of its items to hand out. -/
theorem finished_not_mem_pending (cursor : InstructionCursor) : .finished ∉ cursor.pending := by
  rw [pending]
  split <;> simp

/-- The instructions to come are the ones ahead. -/
theorem instruction?_pending (cursor : InstructionCursor) (place : Nat) :
    (cursor.pending[place]?.getD .finished).instruction? = cursor.ahead[place]? := by
  rw [pending]
  rcases Nat.lt_or_ge place cursor.ahead.length with hlt | hge
  · rw [List.getElem?_append_left (by simpa using hlt), List.getElem?_map,
      List.getElem?_eq_getElem hlt]
    rfl
  · rw [List.getElem?_append_right (by simpa using hge), List.getElem?_eq_none hge]
    -- Behind the instructions there is the boundary or nothing.
    split
    · rfl
    · cases place - (cursor.ahead.map CursorItem.instruction).length <;> rfl

/-! ## One call -/

/-- The place of an instruction ahead. -/
theorem Sound.at?_add (h : cursor.Sound) (offset : Nat) :
    cursor.at? (cursor.position + offset) = cursor.ahead[offset]? := by
  have hnonneg := h.nonneg
  rw [at?, if_pos (by omega), ahead, List.getElem?_drop,
    Int.toNat_add hnonneg (Int.natCast_nonneg offset), Int.toNat_natCast]

/-- **A look ahead** sees the instructions to come, counted from one. -/
theorem Sound.peek?_eq (h : cursor.Sound) (offset : Nat) :
    cursor.peek? (offset + 1) = cursor.ahead[offset]? := by
  rw [peek?, ← h.at?_add]
  congr 1
  omega

/-- **A skip** drops instructions that lie ahead. -/
theorem Sound.ahead_skip (h : cursor.Sound) (count : Nat) :
    (cursor.skip count).ahead = cursor.ahead.drop count := by
  have hplace : (min (cursor.position + count) cursor.size).toNat
      = min (cursor.position.toNat + count) cursor.instructions.length := by
    have hnonneg := h.nonneg
    rw [size]
    omega
  rw [ahead, ahead, List.drop_drop, InstructionCursor.skip, hplace]
  -- A skip that would lead beyond the end leads to the end: either way nothing is ahead.
  rcases Nat.le_total (cursor.position.toNat + count) cursor.instructions.length with hin | hout
  · rw [Nat.min_eq_left hin]
  · rw [Nat.min_eq_right hout, List.drop_length, List.drop_eq_nil_of_le hout]

/-- Behind a skip a cursor stands in its function. -/
theorem Sound.skip (h : cursor.Sound) (count : Nat) : (cursor.skip count).Sound where
  nonneg := by
    have hnonneg := h.nonneg
    simp only [InstructionCursor.skip, size]
    omega
  le_size := Int.min_le_right _ _
  at_end hdone := by
    have hend := h.at_end hdone
    simp only [InstructionCursor.skip, size] at *
    omega

/-- Skips add up. -/
theorem skip_skip (cursor : InstructionCursor) (first second : Nat) :
    (cursor.skip first).skip second = cursor.skip (first + second : Nat) := by
  simp only [InstructionCursor.skip, size, mk.injEq, true_and, and_true]
  omega

/-- At the end there is nothing to skip. -/
theorem skip_of_position_eq (h : cursor.position = cursor.size) (count : Nat) :
    cursor.skip count = cursor := by
  rw [InstructionCursor.skip, Int.min_eq_right (by omega), ← h]

/-- An instruction that lies ahead is handed out, and the cursor is as if it were skipped. -/
theorem Sound.next_of_ahead_eq_cons (h : cursor.Sound) {ins : Instruction}
    {rest : List Instruction} (hahead : cursor.ahead = ins :: rest) :
    cursor.next = (.instruction ins, cursor.skip (1 : Nat)) := by
  have hat := h.at?_add 0
  rw [hahead, List.getElem?_cons_zero, Int.natCast_zero, Int.add_zero] at hat
  have hlt : cursor.position < cursor.size := by
    refine Int.lt_iff_le_and_ne.mpr ⟨h.le_size, fun heq => ?_⟩
    simp [h.ahead_eq_nil_iff.mpr heq] at hahead
  rw [InstructionCursor.next, if_neg (Int.not_lt.mpr h.nonneg), hat, InstructionCursor.skip,
    Int.natCast_one, Int.min_eq_left (by omega)]

/-- When no instruction lies ahead, the boundary is reported unless it was. -/
theorem Sound.next_of_ahead_eq_nil (h : cursor.Sound) (hahead : cursor.ahead = []) :
    cursor.next = if cursor.done then (.finished, cursor)
      else (.boundary, { cursor with done := true }) := by
  have hat := h.at?_add 0
  rw [hahead, List.getElem?_nil, Int.natCast_zero, Int.add_zero] at hat
  rw [InstructionCursor.next, if_neg (Int.not_lt.mpr h.nonneg), hat]

/-- **The next call** hands out the first item to come. -/
theorem Sound.next (h : cursor.Sound) :
    cursor.next.1 = cursor.pending.head?.getD .finished
      ∧ cursor.next.2.pending = cursor.pending.tail
      ∧ cursor.next.2.Sound := by
  cases hahead : cursor.ahead with
  | cons ins rest =>
      rw [h.next_of_ahead_eq_cons hahead]
      refine ⟨?_, ?_, h.skip 1⟩
      · simp [pending, hahead]
      · rw [pending, pending, h.ahead_skip 1, hahead]
        rfl
  | nil =>
      rw [h.next_of_ahead_eq_nil hahead]
      cases hdone : cursor.done with
      | true => simp [pending, hahead, hdone, h]
      | false =>
          refine ⟨?_, ?_, h.nonneg, h.le_size, fun _ => h.ahead_eq_nil_iff.mp hahead⟩
          · simp [pending, hahead, hdone]
          · simp [pending, hahead, hdone]

/-- The cursor behind the next instruction. A boundary is not taken. -/
def discard (cursor : InstructionCursor) : InstructionCursor :=
  match cursor.next with
  | (.instruction _, later) => later
  | (.boundary, _) | (.finished, _) => cursor

/-- One instruction is discarded as it is skipped. -/
theorem Sound.discard_eq (h : cursor.Sound) : cursor.discard = cursor.skip (1 : Nat) := by
  rw [discard]
  cases hahead : cursor.ahead with
  | cons ins rest => rw [h.next_of_ahead_eq_cons hahead]
  | nil =>
      rw [h.next_of_ahead_eq_nil hahead]
      have hend := skip_of_position_eq (h.ahead_eq_nil_iff.mp hahead) 1
      cases cursor.done <;> exact hend.symm

/-- **Skipping is discarding** one instruction after the other. -/
theorem Sound.skip_eq_iterate (h : cursor.Sound) (count : Nat) :
    cursor.skip count = discard^[count] cursor := by
  induction count with
  | zero =>
      have hle := h.le_size
      rw [Function.iterate_zero_apply, InstructionCursor.skip, Int.natCast_zero, Int.add_zero,
        Int.min_eq_left hle]
  | succ count ih =>
      rw [Function.iterate_succ_apply', ← ih, (h.skip count).discard_eq]
      exact (skip_skip cursor count 1).symm

/-! ## Any row of calls -/

/-- The calls that a cursor answers. -/
inductive Call where
  /-- Hand out the next item. -/
  | next
  /-- Look some places ahead. -/
  | peek (offset : Nat)
  /-- Skip some instructions. -/
  | skip (count : Nat)
deriving DecidableEq, Repr

/-- The cursor behind one call. -/
def call (cursor : InstructionCursor) : Call → InstructionCursor
  | .next => cursor.next.2
  | .peek _ => cursor
  | .skip count => cursor.skip count

/-- The cursor behind several calls. -/
def behind (cursor : InstructionCursor) (calls : List Call) : InstructionCursor :=
  calls.foldl call cursor

/-- The items that several calls hand out. -/
def handedOut (cursor : InstructionCursor) : List Call → List CursorItem
  | [] => []
  | .next :: later => cursor.next.1 :: cursor.next.2.handedOut later
  | .peek _ :: later => cursor.handedOut later
  | .skip count :: later => (cursor.skip count).handedOut later

/-- The instructions of a row that are not skipped, where each call for the next item takes one. -/
def kept : List Call → List Instruction → List Instruction
  | [], row => row
  | .next :: later, row => row.take 1 ++ kept later (row.drop 1)
  | .peek _ :: later, row => kept later row
  | .skip count :: later, row => kept later (row.drop count)

/-- Nothing is kept of an empty row. -/
@[simp] theorem kept_nil (calls : List Call) : kept calls [] = [] := by
  induction calls with
  | nil => rfl
  | cons first later ih => cases first <;> simpa [kept] using ih

/-- Instructions are kept in their order, each once. -/
theorem kept_sublist (calls : List Call) (row : List Instruction) :
    (kept calls row).Sublist row := by
  induction calls generalizing row with
  | nil => exact .refl _
  | cons first later ih =>
      cases first with
      | next =>
          have hrow := (List.Sublist.refl (row.take 1)).append (ih (row.drop 1))
          rwa [List.take_append_drop] at hrow
      | peek => exact ih row
      | skip count => exact (ih (row.drop count)).trans (List.drop_sublist count row)

/-- A cursor stays in its function with every call. -/
theorem Sound.call (h : cursor.Sound) (last : Call) : (cursor.call last).Sound := by
  cases last with
  | next => exact h.next.2.2
  | peek => exact h
  | skip count => exact h.skip count

/-- A cursor stays in its function with any row of calls. -/
theorem Sound.behind (h : cursor.Sound) (calls : List Call) : (cursor.behind calls).Sound := by
  induction calls generalizing cursor with
  | nil => exact h
  | cons first later ih => exact ih (h.call first)

/-- Plain iteration takes one item after the other. -/
theorem Sound.pending_behind_replicate (h : cursor.Sound) (count : Nat) :
    (cursor.behind (.replicate count .next)).pending = cursor.pending.drop count := by
  induction count generalizing cursor with
  | zero => rfl
  | succ count ih =>
      obtain ⟨-, htail, hsound⟩ := h.next
      rw [List.replicate_succ, InstructionCursor.behind, List.foldl_cons]
      exact (ih hsound).trans (by rw [htail, List.drop_tail])

/-- **What a row of calls hands out**: the instructions that it keeps, the boundary unless it was
reported before, and from then on nothing. `count` bounds the items that are asked for. -/
theorem Sound.handedOut_eq (h : cursor.Sound) (calls : List Call) {count : Nat}
    (hcount : calls.count .next ≤ count) :
    cursor.handedOut calls
      = ((kept calls cursor.ahead).map CursorItem.instruction
          ++ ((if cursor.done then [] else [CursorItem.boundary])
            ++ List.replicate count CursorItem.finished)).take (calls.count .next) := by
  -- The bound stays the same along the calls, so the row behind the boundary does.
  induction calls generalizing cursor with
  | nil => rfl
  | cons first later ih =>
      cases first with
      | next =>
          rw [List.count_cons_self] at hcount ⊢
          have hlater := ih h.next.2.2 (by omega)
          cases hahead : cursor.ahead with
          | cons ins rest =>
              rw [h.next_of_ahead_eq_cons hahead] at hlater
              rw [handedOut, h.next_of_ahead_eq_cons hahead, hlater, h.ahead_skip 1, hahead]
              rfl
          | nil =>
              rw [h.next_of_ahead_eq_nil hahead] at hlater
              rw [handedOut, h.next_of_ahead_eq_nil hahead]
              cases hdone : cursor.done with
              | true =>
                  -- The items are at their end and stay there.
                  rw [if_pos hdone] at hlater
                  rw [if_pos rfl, hlater, hahead, hdone]
                  simp [List.take_replicate, hcount, show later.count .next ≤ count by omega,
                    List.replicate_succ]
              | false =>
                  simp only [hdone, Bool.false_eq_true, if_false] at hlater ⊢
                  rw [hlater, ahead_report, hahead]
                  simp
      | peek => exact ih h hcount
      | skip skipped =>
          have hlater := ih (h.skip skipped) hcount
          rw [h.ahead_skip] at hlater
          exact hlater

/-- **The boundary is not lost**: it is handed out or still to come. -/
theorem Sound.count_boundary (h : cursor.Sound) (calls : List Call) :
    (cursor.handedOut calls ++ (cursor.behind calls).pending).count .boundary
      = cursor.pending.count .boundary := by
  induction calls generalizing cursor with
  | nil => rfl
  | cons first later ih =>
      cases first with
      | next =>
          obtain ⟨hitem, htail, hsound⟩ := h.next
          have hlater := ih hsound
          rw [htail] at hlater
          rw [handedOut, List.cons_append, List.count_cons]
          refine (congrArg (· + _) hlater).trans ?_
          rw [hitem]
          -- The item handed out was to come, or it is the end of the items.
          cases cursor.pending with
          | nil => rfl
          | cons item items => exact List.count_cons.symm
      | peek => exact ih h
      | skip skipped =>
          refine (ih (h.skip skipped)).trans ?_
          rw [count_boundary_pending, count_boundary_pending]
          rfl

/-- With enough fuel all items to come are handed out. -/
theorem Sound.drainWith_eq (h : cursor.Sound) {fuel : Nat} (hfuel : cursor.pending.length ≤ fuel) :
    (drainWith fuel cursor).1 = cursor.pending := by
  induction fuel generalizing cursor with
  | zero => exact (List.length_eq_zero_iff.mp (Nat.le_zero.mp hfuel)).symm
  | succ fuel ih =>
      obtain ⟨hitem, htail, hsound⟩ := h.next
      rw [drainWith]
      cases hnext : cursor.next with
      | mk item later =>
          rw [hnext] at hitem htail hsound
          cases hpending : cursor.pending with
          | nil =>
              rw [hpending] at hitem
              cases hitem
              rfl
          | cons first rest =>
              rw [hpending] at hitem htail hfuel
              cases hitem
              have hrest := ih hsound (by rw [htail]; simpa using hfuel)
              have hmem : item ∈ cursor.pending := by simp [hpending]
              cases item with
              | finished => exact absurd hmem cursor.finished_not_mem_pending
              | instruction | boundary => exact congrArg (_ :: ·) (hrest.trans htail)

/-- **Iterating to the end** hands out all items to come. -/
theorem Sound.drain_eq (h : cursor.Sound) : cursor.drain.1 = cursor.pending := by
  have hnonneg := h.nonneg
  have hle := h.le_size
  refine h.drainWith_eq ?_
  have hrest : (if cursor.done then [] else [CursorItem.boundary]).length ≤ 1 := by
    split <;> simp
  rw [pending, List.length_append, List.length_map, ahead, List.length_drop, size] at *
  omega

end InstructionCursor

open InstructionCursor

/-- **Looking ahead predicts the iteration.** A cursor over any instructions was asked, in any
order, for its next item, to look ahead and to skip instructions. Then a look `offset + 1` places
ahead leaves the cursor as it is, and sees the instruction that is handed out behind `offset` more
items, or none if what is handed out there is no instruction; to skip is to discard one instruction
after the other, where a boundary is not taken; the items handed out so far are the instructions
that were not skipped, in their order and each once, then the boundary and from then on nothing, as
many as were asked for; and when the cursor hands out all the rest, the boundary has been reported
exactly once. -/
theorem lookahead_predicts_iteration (instructions : List Instruction) (calls : List Call) :
    let cursor := (start instructions).behind calls
    (∀ offset : Nat, cursor.behind [.peek (offset + 1)] = cursor
        ∧ cursor.peek? (offset + 1)
          = (cursor.behind (.replicate offset .next)).next.1.instruction?)
      ∧ (∀ count : Nat, cursor.skip count = discard^[count] cursor)
      ∧ (kept calls instructions).Sublist instructions
      ∧ (start instructions).handedOut calls
        = ((kept calls instructions).map CursorItem.instruction
            ++ CursorItem.boundary :: List.replicate (calls.count .next) CursorItem.finished).take
              (calls.count .next)
      ∧ ((start instructions).handedOut calls ++ cursor.drain.1).count .boundary = 1 := by
  intro cursor
  have hstart := sound_start instructions
  have hcursor : cursor.Sound := hstart.behind calls
  refine ⟨fun offset => ⟨rfl, ?_⟩, hcursor.skip_eq_iterate, kept_sublist calls instructions,
    ?_, ?_⟩
  · obtain ⟨hitem, -, -⟩ := (hcursor.behind (.replicate offset .next)).next
    rw [hitem, hcursor.pending_behind_replicate, List.head?_drop, instruction?_pending,
      hcursor.peek?_eq]
  · have hitems := hstart.handedOut_eq calls (Nat.le_refl _)
    rw [ahead_start] at hitems
    exact hitems
  · rw [hcursor.drain_eq, hstart.count_boundary, count_boundary_pending]
    rfl

/-- A skip beyond the end leaves the boundary to come. -/
example (first second : Instruction) :
    (start [first, second]).handedOut [.next, .skip 5, .peek 1, .next, .next]
      = [.instruction first, .boundary, .finished] := by
  rfl

/-! ## Walking with a cursor -/

namespace ResolverState

/-- Passing over instructions is leaving them out. -/
theorem walkCode_eq_drop (state : ResolverState) (used : Nat) (code : List Instruction) :
    state.walkCode used code = state.walkCode 0 (code.drop used) := by
  induction code generalizing used with
  | nil => cases used <;> rfl
  | cons ins rest ih =>
      cases used with
      | zero => rfl
      | succ used => rw [walkCode, ih, List.drop_succ_cons]

/-- **A cursor leads the walk over a function.** Each step takes the next instruction that the
cursor hands out, sees what the cursor can look ahead to, and skips what it used up; the walk is
over when no instruction is handed out. -/
theorem walkCode_ahead (state : ResolverState) {cursor : InstructionCursor} (h : cursor.Sound) :
    state.walkCode 0 cursor.ahead
      = match cursor.next with
        | (.instruction ins, later) =>
          (state.step ins later.ahead).1.walkCode 0
            (later.skip (state.step ins later.ahead).2).ahead
        | (.boundary, _) | (.finished, _) => state := by
  cases hahead : cursor.ahead with
  | nil =>
      rw [h.next_of_ahead_eq_nil hahead]
      cases cursor.done <;> rfl
  | cons ins rest =>
      have hlater := h.ahead_skip 1
      rw [hahead, List.drop_succ_cons, List.drop_zero] at hlater
      rw [h.next_of_ahead_eq_cons hahead]
      dsimp only
      rw [(h.skip 1).ahead_skip, hlater, ← walkCode_eq_drop]
      rfl

end ResolverState

end LuaGlobals
