import LuaGlobals.Scope.Rows

/-! # Locals and the ranges in which they live

The locals of nested blocks hold registers as on a stack. A listing prints no registers, so each is
counted from the rows that are still alive where its local starts.

* `BlockStructured` is the way in which the ranges of nested blocks lie.
* `placeRows` gives each row its register, also the rows of locals that the compiler made.
* **`registers_of_alive_rows`**: at each instruction the rows that are alive have the registers from
  zero on, in order.
* **`live_local_found_iff`**: which local is found in the register of a live one. -/

namespace LuaGlobals

/-! ## Ranges of rows -/

/-- Whether the local of a row is alive at an instruction. -/
def LocalRow.isAlive (row : LocalRow) (position : Int) : Bool :=
  row.start ≤ position && position < row.stop

/-- **The ranges of nested blocks**: of two rows the later one starts no earlier, and it starts when
the other local is alive no more or ends no later. -/
structure BlockStructured (rows : List LocalRow) : Prop where
  /-- Rows are in the order of their starts. -/
  ordered : rows.Pairwise (·.start ≤ ·.start)
  /-- Ranges are apart or the later one lies inside. -/
  nested : rows.Pairwise fun outer inner => outer.stop ≤ inner.start ∨ inner.stop ≤ outer.stop

section

variable {rows earlier later : List LocalRow} {row other : LocalRow} {position : Int}

/-- A live row has started and has not ended. -/
theorem LocalRow.isAlive_iff :
    row.isAlive position = true ↔ row.start ≤ position ∧ position < row.stop := by
  rw [isAlive, Bool.and_eq_true, decide_eq_true_eq, decide_eq_true_eq]

/-- A row in front of another one starts no later, and ends before it or outlasts it. -/
theorem BlockStructured.of_mem (h : BlockStructured (earlier ++ row :: later))
    (hother : other ∈ earlier) :
    other.start ≤ row.start ∧ (other.stop ≤ row.start ∨ row.stop ≤ other.stop) :=
  ⟨(List.pairwise_append.mp h.ordered).2.2 other hother row List.mem_cons_self,
    (List.pairwise_append.mp h.nested).2.2 other hother row List.mem_cons_self⟩

/-- While a row is alive, the earlier rows are alive that were so where it starts. -/
theorem BlockStructured.start_lt_stop_iff (h : BlockStructured (earlier ++ row :: later))
    (halive : row.isAlive position = true) (hother : other ∈ earlier) :
    row.start < other.stop ↔ other.isAlive position = true := by
  obtain ⟨hstart, hnested⟩ := h.of_mem hother
  rw [LocalRow.isAlive_iff] at halive ⊢
  omega

/-- **The register of a live row** is the number of earlier rows that are alive with it. -/
theorem BlockStructured.aliveAt_start (h : BlockStructured (earlier ++ row :: later))
    (halive : row.isAlive position = true) :
    aliveAt earlier row.start = earlier.countP (·.isAlive position) := by
  refine List.countP_congr fun other hother => ?_
  rw [decide_eq_true_eq]
  exact h.start_lt_stop_iff halive hother

end

/-! ## Registers -/

/-- The rows with their registers, given the rows before them. -/
def placeRows (earlier : List LocalRow) : List LocalRow → List (LocalRow × Nat)
  | [] => []
  | row :: rest => (row, aliveAt earlier row.start) :: placeRows (earlier ++ [row]) rest

/-- The locals that are kept of rows with registers. -/
def keptSlots (placed : List (LocalRow × Nat)) : List LocalSlot :=
  (placed.filter (!·.1.isInternal)).map fun (row, register) => row.toSlot register

section

variable {rows earlier later : List LocalRow} {row : LocalRow} {position : Int}

/-- Placing rows keeps them. -/
theorem map_fst_placeRows (earlier rows : List LocalRow) :
    (placeRows earlier rows).map (·.1) = rows := by
  induction rows generalizing earlier with
  | nil => rfl
  | cons row rest ih => rw [placeRows, List.map_cons, ih]

/-- Rows are placed one part after the other. -/
theorem placeRows_append (earlier rows later : List LocalRow) :
    placeRows earlier (rows ++ later)
      = placeRows earlier rows ++ placeRows (earlier ++ rows) later := by
  induction rows generalizing earlier with
  | nil => rw [List.append_nil]; rfl
  | cons row rest ih =>
      rw [List.cons_append, placeRows, placeRows, ih, List.append_assoc]
      rfl

/-- The table of locals shows the registers of the rows that it keeps. -/
theorem assignRegisters_eq (earlier rows : List LocalRow) :
    assignRegisters earlier rows = keptSlots (placeRows earlier rows) := by
  induction rows generalizing earlier with
  | nil => rfl
  | cons row rest ih =>
      unfold assignRegisters placeRows
      rw [ih]
      cases hinternal : row.isInternal <;> simp [keptSlots, hinternal]

/-- **Live rows hold a stack of registers**: those of the rows that are alive count up from the
number of earlier ones. -/
theorem registers_placeRows (h : BlockStructured (earlier ++ rows)) (position : Int) :
    ((placeRows earlier rows).filter (·.1.isAlive position)).map (·.2)
      = List.range' (earlier.countP (·.isAlive position)) (rows.countP (·.isAlive position)) := by
  induction rows generalizing earlier with
  | nil => rfl
  | cons row rest ih =>
      have hsplit : BlockStructured ((earlier ++ [row]) ++ rest) := by rwa [List.append_assoc]
      have hrest := ih hsplit
      rw [List.countP_append, List.countP_singleton] at hrest
      rw [placeRows, List.countP_cons, List.filter_cons]
      -- A live row takes the first of the registers, and one that is not alive leaves them all.
      by_cases halive : row.isAlive position = true
      · rw [if_pos halive] at hrest ⊢
        rw [List.map_cons, hrest, h.aliveAt_start halive, if_pos halive, List.range'_succ]
      · rw [if_neg halive] at hrest ⊢
        rw [hrest, if_neg halive, Nat.add_zero, Nat.add_zero]

/-- **Two rows that are alive together have different registers.** -/
theorem BlockStructured.pairwise_placeRows (h : BlockStructured rows) (position : Int) :
    (placeRows [] rows).Pairwise fun a b =>
      a.1.isAlive position = true → b.1.isAlive position = true → a.2 ≠ b.2 := by
  have hregisters := registers_placeRows (List.nil_append rows ▸ h) position
  have hdistinct : (((placeRows [] rows).filter (·.1.isAlive position)).map (·.2)).Nodup := by
    rw [hregisters]
    exact List.nodup_range'
  exact List.pairwise_filter.mp (List.pairwise_map.mp hdistinct)

end

/-- **Registers are allocated as on a stack.** Where the ranges of the rows are those of nested
blocks, each row has a register, which the table of locals shows for the rows that it keeps; at each
instruction the live rows, also those of locals that the compiler made, hold the registers from zero
on in their order, and so no two of them hold the same. -/
theorem registers_of_alive_rows (localRows upvalueRows : List (List Char))
    (h : BlockStructured (localRows.filterMap readLocalRow?)) :
    let rows := localRows.filterMap readLocalRow?
    ∃ placed : List (LocalRow × Nat),
      placed.map (·.1) = rows
        ∧ (FunctionScope.ofRows localRows upvalueRows).locals = keptSlots placed
        ∧ (∀ position, (placed.filter (·.1.isAlive position)).map (·.2)
          = List.range (rows.countP (·.isAlive position)))
        ∧ ∀ position, placed.Pairwise fun a b =>
          a.1.isAlive position = true → b.1.isAlive position = true → a.2 ≠ b.2 := by
  intro rows
  refine ⟨placeRows [] rows, map_fst_placeRows [] rows, assignRegisters_eq [] rows,
    fun position => ?_, h.pairwise_placeRows⟩
  rw [List.range_eq_range']
  exact registers_placeRows (List.nil_append rows ▸ h) position

/-- The rows of a loop with a local in its body, behind a block that has ended. -/
def loopRows : List (List Char) :=
  ["\t0\ta\t2\t5".toList, "\t1\tb\t3\t5".toList, "\t2\t(for index)\t6\t12".toList,
    "\t3\ti\t7\t11".toList, "\t4\tx\t8\t11".toList]

/-- At the ninth instruction the counter of the loop, its variable and the local are alive, in the
registers zero to two. -/
theorem loopRows_registers :
    let rows := loopRows.filterMap readLocalRow?
    BlockStructured rows ∧ rows.countP (·.isAlive 9) = 3
      ∧ ∃ placed : List (LocalRow × Nat), placed.map (·.1) = rows
        ∧ (FunctionScope.ofRows loopRows []).locals = keptSlots placed
        ∧ (placed.filter (·.1.isAlive 9)).map (·.2) = [0, 1, 2] := by
  intro rows
  have hblocks : BlockStructured rows := ⟨by decide +kernel, by decide +kernel⟩
  have hcount : rows.countP (·.isAlive 9) = 3 := by decide +kernel
  obtain ⟨placed, hrows, hlocals, hstack, -⟩ := registers_of_alive_rows loopRows [] hblocks
  refine ⟨hblocks, hcount, placed, hrows, hlocals, ?_⟩
  rw [hstack, hcount]
  rfl

/-! ## The local in a register -/

/-- The first entry that passes a test, when none before it does. -/
theorem find?_of_forall_front {α : Type} {p : α → Bool} {front : List α} {a : α} (ha : p a = true)
    (hfront : ∀ b ∈ front, ¬p b = true) (back : List α) :
    (front ++ a :: back).find? p = some a
      ∧ (front ++ a :: back).findIdx? p = some front.length := by
  constructor
  · rw [List.find?_append, List.find?_eq_none.mpr hfront, List.find?_cons_of_pos ha]
    rfl
  · have hnone : front.findIdx? p = none := by simpa using hfront
    rw [List.findIdx?_append, hnone, List.findIdx?_cons, if_pos ha, Option.map_some, Nat.zero_add]
    rfl

/-- The first entry that passes a test is among the front ones when one of these does. -/
theorem exists_find?_of_front {α : Type} {p : α → Bool} {front : List α}
    (hfront : ∃ b ∈ front, p b = true) (back : List α) :
    ∃ b ∈ front, p b = true ∧ (front ++ back).find? p = some b
      ∧ (front ++ back).findIdx? p ≠ some front.length := by
  obtain ⟨b, hb⟩ := Option.isSome_iff_exists.mp (List.find?_isSome.mpr hfront)
  refine ⟨b, List.mem_of_find?_eq_some hb, List.find?_some hb, ?_, ?_⟩
  · rw [List.find?_append, hb, Option.some_or]
  · have hsome : (front.findIdx? p).isSome = true := by
      rw [List.findIdx?_isSome]
      exact List.any_eq_true.mpr hfront
    obtain ⟨place, hplace⟩ := Option.isSome_iff_exists.mp hsome
    obtain ⟨hlt, -⟩ := List.findIdx?_eq_some_iff_getElem.mp hplace
    rw [List.findIdx?_append, hplace, Option.some_or]
    simpa using Nat.ne_of_lt hlt

/-- **An entry that passes a test is the first one when none in front of it does**, and else an entry
in front of it is. -/
theorem find?_cut {α : Type} {p : α → Bool} {front : List α} {a : α} (ha : p a = true)
    (hdiffers : ∀ b ∈ front, p b = true → b ≠ a) (back : List α) :
    ((front ++ a :: back).findIdx? p = some front.length ↔ ¬∃ b ∈ front, p b = true)
      ∧ ((front ++ a :: back).find? p = some a ↔ ¬∃ b ∈ front, p b = true)
      ∧ ((∃ b ∈ front, p b = true)
        → ∃ b ∈ front, p b = true ∧ (front ++ a :: back).find? p = some b) := by
  by_cases hfront : ∃ b ∈ front, p b = true
  · obtain ⟨b, hmem, hb, hfound, hplace⟩ := exists_find?_of_front hfront (a :: back)
    rw [hfound, Option.some.injEq]
    exact ⟨iff_of_false hplace (not_not_intro hfront),
      iff_of_false (hdiffers b hmem hb) (not_not_intro hfront), fun _ => ⟨b, hmem, hb, rfl⟩⟩
  · obtain ⟨hfound, hplace⟩ := find?_of_forall_front ha
      (fun b hmem hb => hfront ⟨b, hmem, hb⟩) back
    exact ⟨iff_of_true hplace hfront, iff_of_true hfound hfront, fun h => absurd h hfront⟩

section

variable {rows earlier later : List LocalRow} {row other : LocalRow} {register : Nat}
  {slot : LocalSlot} {position : Int}

/-- The kept locals of one part stand before those of the next. -/
theorem keptSlots_append (placed others : List (LocalRow × Nat)) :
    keptSlots (placed ++ others) = keptSlots placed ++ keptSlots others := by
  rw [keptSlots, List.filter_append, List.map_append]
  rfl

/-- Each row that is kept has its place in the table. -/
theorem length_keptSlots_placeRows (earlier rows : List LocalRow) :
    (keptSlots (placeRows earlier rows)).length = rows.countP (!·.isInternal) := by
  induction rows generalizing earlier with
  | nil => rfl
  | cons row rest ih =>
      rw [placeRows, List.countP_cons, ← ih (earlier ++ [row])]
      cases hinternal : row.isInternal <;> simp [keptSlots, hinternal]

/-- The table of locals, cut at a row that it keeps. -/
theorem assignRegisters_cut (hkept : row.isInternal = false) :
    assignRegisters [] (earlier ++ row :: later)
      = keptSlots (placeRows [] earlier) ++ row.toSlot (aliveAt earlier row.start)
        :: keptSlots (placeRows (earlier ++ [row]) later) := by
  rw [assignRegisters_eq, placeRows_append, keptSlots_append, List.nil_append, placeRows]
  simp [keptSlots, hkept]

/-- A local holds its register from the start to the end of its range. -/
theorem LocalSlot.covers_iff :
    slot.covers position = true ↔ slot.start ≤ position ∧ position ≤ slot.stop := by
  rw [covers, Bool.and_eq_true, decide_eq_true_eq, decide_eq_true_eq]

/-- A local holds its register as long as its row is alive. -/
theorem LocalRow.covers_toSlot_of_isAlive (halive : row.isAlive position = true) (register : Nat) :
    (row.toSlot register).covers position = true := by
  rw [isAlive_iff] at halive
  rw [LocalSlot.covers_iff]
  dsimp only [toSlot]
  omega

/-- **The end of a range counts as part of it**: behind that, a local holds its register no more. -/
theorem LocalRow.covers_toSlot_of_ended (hfirst : 1 ≤ row.start) (hstart : row.start ≤ position)
    (hended : ¬row.isAlive position = true) (register : Nat) :
    (row.toSlot register).covers position = true ↔ (row.toSlot register).stop = position := by
  rw [isAlive_iff] at hended
  rw [LocalSlot.covers_iff]
  dsimp only [toSlot]
  omega

/-- A kept local before a live one, in the same register, comes from a row that has ended. -/
theorem BlockStructured.exists_ended (h : BlockStructured (earlier ++ row :: later))
    (halive : row.isAlive position = true) (hslot : slot ∈ keptSlots (placeRows [] earlier))
    (hregister : slot.slot = aliveAt earlier row.start) :
    ∃ other ∈ earlier, slot = other.toSlot slot.slot ∧ ¬other.isAlive position = true := by
  obtain ⟨⟨other, register⟩, hplaced, rfl⟩ := List.mem_map.mp hslot
  have hmem := (List.mem_filter.mp hplaced).1
  have hother : other ∈ earlier := by
    rw [← map_fst_placeRows [] earlier]
    exact List.mem_map_of_mem hmem
  refine ⟨other, hother, rfl, fun hboth => ?_⟩
  -- Alive as well, it would have another register.
  have hpairs := h.pairwise_placeRows position
  rw [placeRows_append, List.pairwise_append] at hpairs
  exact hpairs.2.2 _ hmem _ List.mem_cons_self hboth halive hregister

/-- **In the register of a live local, an earlier one is found where its range ends.** -/
theorem BlockStructured.holds_iff (h : BlockStructured (earlier ++ row :: later))
    (hfirst : ∀ other ∈ earlier, 1 ≤ other.start) (halive : row.isAlive position = true)
    (hslot : slot ∈ keptSlots (placeRows [] earlier)) :
    FunctionScope.holds (aliveAt earlier row.start) position slot = true
      ↔ slot.slot = aliveAt earlier row.start ∧ (slot.stop : Int) = position := by
  rw [FunctionScope.holds, Bool.and_eq_true, beq_iff_eq, Int.natCast_inj]
  refine and_congr_right fun hregister => ?_
  obtain ⟨other, hother, hsame, hended⟩ := h.exists_ended halive hslot hregister
  have hstart := (h.of_mem hother).1
  have hrow := LocalRow.isAlive_iff.mp halive
  rw [hsame]
  exact LocalRow.covers_toSlot_of_ended (hfirst other hother) (by omega) hended _

/-- Where its range ends, the live local starts. -/
theorem BlockStructured.eq_start (h : BlockStructured (earlier ++ row :: later))
    (halive : row.isAlive position = true) (hslot : slot ∈ keptSlots (placeRows [] earlier))
    (hregister : slot.slot = aliveAt earlier row.start) (hstop : (slot.stop : Int) = position) :
    position = row.start := by
  obtain ⟨other, hother, hsame, hended⟩ := h.exists_ended halive hslot hregister
  obtain ⟨hstart, hnested⟩ := h.of_mem hother
  rw [LocalRow.isAlive_iff] at halive hended
  rw [hsame] at hstop
  dsimp only [LocalRow.toSlot] at hstop
  omega

end

/-- **A live local is found in its register, unless another one ended right there.** Where the
ranges of the rows are those of nested blocks and start at the first instruction or later, each
kept local is found at the instructions at which its row is alive, but for one case: at its first
instruction an earlier local of the same register is found instead when the range of that one ends
there. -/
theorem live_local_found_iff (localRows upvalueRows : List (List Char))
    {earlier later : List LocalRow} {row : LocalRow} {position : Int}
    (hrows : localRows.filterMap readLocalRow? = earlier ++ row :: later)
    (hblocks : BlockStructured (earlier ++ row :: later))
    (hfirst : ∀ other ∈ earlier ++ row :: later, 1 ≤ other.start)
    (hkept : row.isInternal = false) (halive : row.isAlive position = true) :
    let scope := FunctionScope.ofRows localRows upvalueRows
    let slot := row.toSlot (aliveAt earlier row.start)
    let place := earlier.countP (!·.isInternal)
    let endsHere := ∃ other ∈ scope.locals.take place,
      other.slot = slot.slot ∧ (other.stop : Int) = position
    scope.locals[place]? = some slot
      ∧ (scope.localIndexAt? (some slot.slot) position = some place ↔ ¬endsHere)
      ∧ (scope.localAt? (some slot.slot) position = some slot ↔ ¬endsHere)
      ∧ (endsHere → position = row.start ∧ ∃ other ∈ scope.locals.take place,
        (other.stop : Int) = position ∧ scope.localAt? (some slot.slot) position = some other) := by
  intro scope slot place endsHere
  -- The table is cut at the local: what stands in front of it decides what is found.
  obtain ⟨front, hfront⟩ : ∃ front, front = keptSlots (placeRows [] earlier) := ⟨_, rfl⟩
  obtain ⟨back, hcut⟩ : ∃ back, scope.locals = front ++ slot :: back := by
    refine ⟨keptSlots (placeRows (earlier ++ [row]) later), ?_⟩
    rw [hfront, ← assignRegisters_cut hkept, ← hrows]
    rfl
  have hlength : front.length = place := by
    rw [hfront]
    exact length_keptSlots_placeRows [] earlier
  have htake : scope.locals.take place = front := by rw [hcut, ← hlength, List.take_left]
  have hself : FunctionScope.holds slot.slot position slot = true := by
    rw [FunctionScope.holds, beq_self_eq_true, Bool.true_and]
    exact LocalRow.covers_toSlot_of_isAlive halive _
  have hholds : ∀ other ∈ front, FunctionScope.holds slot.slot position other = true
      ↔ other.slot = slot.slot ∧ (other.stop : Int) = position := fun other hother =>
    hblocks.holds_iff (fun other hmem => hfirst other (List.mem_append_left _ hmem)) halive
      (hfront ▸ hother)
  have hat : scope.localAt? (some slot.slot) position
      = (front ++ slot :: back).find? (FunctionScope.holds slot.slot position) := hcut ▸ rfl
  have hindex : scope.localIndexAt? (some slot.slot) position
      = (front ++ slot :: back).findIdx? (FunctionScope.holds slot.slot position) := hcut ▸ rfl
  -- What is found in front of the live local has ended, so it is another one.
  have hdiffers : ∀ other ∈ front, FunctionScope.holds slot.slot position other = true →
      other ≠ slot := by
    intro other hother hheld heq
    have hstop := ((hholds other hother).mp hheld).2
    have hend : row.stop ≤ slot.stop := Nat.le_max_left _ _
    have hlive := (LocalRow.isAlive_iff.mp halive).2
    rw [heq] at hstop
    omega
  have hends : (∃ other ∈ front, FunctionScope.holds slot.slot position other = true)
      ↔ endsHere := by
    simp only [endsHere, htake]
    exact exists_congr fun other => and_congr_right fun hother => hholds other hother
  obtain ⟨hplaced, hfound, hearlier⟩ := find?_cut hself hdiffers back
  rw [hends] at hplaced hfound hearlier
  rw [hat, hindex, htake, ← hlength]
  refine ⟨?_, hplaced, hfound, fun h => ?_⟩
  · rw [hcut, List.getElem?_append_right (Nat.le_refl _), Nat.sub_self]
    rfl
  · obtain ⟨other, hother, hheld, hfirstFound⟩ := hearlier h
    obtain ⟨hregister, hstop⟩ := (hholds other hother).mp hheld
    exact ⟨hblocks.eq_start halive (hfront ▸ hother) hregister hstop, other, hother, hstop,
      hfirstFound⟩

/-- The rows of `do local a end local b` in front of further code: neither local takes an
instruction to set up. -/
def emptyBlockRows : List (List Char) :=
  ["\t0\ta\t1\t1".toList, "\t1\tb\t1\t5".toList]

/-- At the first instruction the local of the empty block is found, which has ended, in the register
of the one that is alive there. -/
theorem emptyBlockRows_find_ended :
    let scope := FunctionScope.ofRows emptyBlockRows []
    BlockStructured (emptyBlockRows.filterMap readLocalRow?)
      ∧ scope.locals[1]? = some ⟨0, "b", 0, 5, false⟩
      ∧ scope.localAt? (some 0) 1 ≠ some ⟨0, "b", 0, 5, false⟩ := by
  intro scope
  have hread : emptyBlockRows.filterMap readLocalRow? = [⟨"a", 1, 1⟩] ++ [⟨"b", 1, 5⟩] := by
    decide +kernel
  have hblocks : BlockStructured ([⟨"a", 1, 1⟩] ++ [⟨"b", 1, 5⟩]) := ⟨by decide, by decide⟩
  have hends : ∃ other ∈ scope.locals.take 1, other.slot = 0 ∧ (other.stop : Int) = 1 := by
    decide +kernel
  obtain ⟨hplace, -, hfound, -⟩ := live_local_found_iff emptyBlockRows [] hread hblocks (by decide)
    (by decide) (show LocalRow.isAlive ⟨"b", 1, 5⟩ 1 = true by decide)
  exact ⟨hread ▸ hblocks, hplace, fun hlive => hfound.mp hlive hends⟩

end LuaGlobals
