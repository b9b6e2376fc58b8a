import LuaGlobals.Proofs.Listing.Partition

/-! # What a stream hands out

A stream is asked for one function after the other. What it hands out is compared with what is read
at once, and so with the layout of the lines.

* `FunctionStream.nextEach` is what a stream hands out, one call after the other.
* **`nextEach_of_readFunctions`** and **`nextEach_eq_iff_readFunctions`**: a stream hands out the
  functions that are read, and then nothing, or the error behind them.
* **`readFunctions_eq_iff_laidOut`**: the functions of a listing are those of its layout. -/

namespace LuaGlobals

open Text

variable {stream : FunctionStream} {listings : List FunctionListing}
  {listing? : Option FunctionListing} {reader after : LineReader}

/-! ## One call -/

/-- Without a function in the buffer a stream hands out the next one that is read. -/
theorem next_eq (hbuffered : stream.buffered = none) :
    stream.next.1 = (readFunction stream.reader).1
      ∧ stream.next.2.reader = (readFunction stream.reader).2
      ∧ stream.next.2.buffered = none := by
  rw [FunctionStream.next, hbuffered]
  dsimp only
  rw [FunctionStream.read]
  split
  case h_1 hread => exact ⟨by rw [hread], by rw [hread], hbuffered⟩
  case h_2 hread => exact ⟨by rw [hread], by rw [hread], hbuffered⟩
  case h_3 hread => exact ⟨by rw [hread], by rw [hread], hbuffered⟩

/-- What is handed out when the next function is known. -/
theorem next_of_readFunction (hbuffered : stream.buffered = none)
    (h : readFunction stream.reader = (.ok listing?, after)) :
    stream.next.1 = .ok listing? ∧ stream.next.2.buffered = none
      ∧ stream.next.2.reader = after := by
  obtain ⟨hnext, hreader, hempty⟩ := next_eq hbuffered
  rw [h] at hnext hreader
  exact ⟨hnext, hempty, hreader⟩

/-- At the end no lines are left. -/
theorem remaining_of_readFunction (h : readFunction reader = (.ok none, after)) :
    after.remaining = [] := by
  obtain ⟨hblank, rfl⟩ := readFunction_eq_none_iff.mp h
  exact List.dropWhile_eq_nil_iff.mpr hblank

/-! ## Call after call -/

/-- The results of calls for the next function, one after the other. -/
def FunctionStream.nextEach :
    Nat → FunctionStream → List (Except ListingError (Option FunctionListing))
  | 0, _ => []
  | count + 1, stream => stream.next.1 :: nextEach count stream.next.2

/-- A stream without lines hands out nothing. -/
theorem nextEach_of_remaining (hbuffered : stream.buffered = none)
    (h : stream.reader.remaining = []) (count : Nat) :
    stream.nextEach count = List.replicate count (.ok none) := by
  induction count generalizing stream with
  | zero => rfl
  | succ count ih =>
      have hread : readFunction stream.reader = (.ok none, stream.reader.skipBlankLines) := by
        simp [readFunction, LineReader.skipBlankLines, h]
      obtain ⟨hnext, hbuffered, hreader⟩ := next_of_readFunction hbuffered hread
      rw [FunctionStream.nextEach, hnext, List.replicate_succ,
        ih hbuffered (hreader ▸ remaining_of_readFunction hread)]

/-- **A stream hands out what is read**, and nothing behind it. -/
theorem nextEach_of_readFunctions
    (hbuffered : stream.buffered = none) (h : readFunctions stream.reader = (listings, none))
    (extra : Nat) :
    stream.nextEach (listings.length + extra)
      = listings.map (.ok ∘ some) ++ List.replicate extra (.ok none) := by
  induction listings generalizing stream with
  | nil =>
      obtain ⟨after, hread⟩ := readFunctions_eq_nil_iff.mp h
      obtain ⟨hnext, hbuffered, hreader⟩ := next_of_readFunction hbuffered hread
      cases extra with
      | zero => rfl
      | succ extra =>
          rw [List.length_nil, Nat.zero_add, FunctionStream.nextEach, hnext,
            nextEach_of_remaining hbuffered (hreader ▸ remaining_of_readFunction hread)]
          rfl
  | cons listing listings ih =>
      obtain ⟨after, hread, hrest⟩ := readFunctions_eq_cons_iff.mp h
      obtain ⟨hnext, hbuffered, hreader⟩ := next_of_readFunction hbuffered hread
      rw [List.length_cons, Nat.add_right_comm, FunctionStream.nextEach, hnext,
        ih hbuffered (hreader ▸ hrest)]
      rfl

/-- What a stream answers behind the last function, where reading stops at the end or at an
error. -/
def FunctionStream.lastAnswer : Option ListingError →
    Except ListingError (Option FunctionListing)
  | none => .ok none
  | some error => .error error

/-- **A stream stops behind some functions exactly when reading stops there**, at the end or at an
error. -/
theorem nextEach_eq_iff_readFunctions (hbuffered : stream.buffered = none)
    (error? : Option ListingError) :
    stream.nextEach (listings.length + 1)
        = listings.map (.ok ∘ some) ++ [FunctionStream.lastAnswer error?]
      ↔ readFunctions stream.reader = (listings, error?) := by
  induction listings generalizing stream with
  | nil =>
      obtain ⟨hnext, -, -⟩ := next_eq hbuffered
      rw [List.length_nil, FunctionStream.nextEach, FunctionStream.nextEach, hnext,
        readFunctions_eq]
      split
      case h_1 hread => cases error? <;> simp [hread, FunctionStream.lastAnswer]
      case h_2 hread => cases error? <;> simp [hread, FunctionStream.lastAnswer]
      case h_3 hread => cases error? <;> simp [hread, FunctionStream.lastAnswer]
  | cons listing listings ih =>
      obtain ⟨hnext, hreader, hempty⟩ := next_eq hbuffered
      rw [List.length_cons, FunctionStream.nextEach, hnext, List.map_cons, List.cons_append,
        List.cons.injEq, ih hempty, hreader, readFunctions_eq stream.reader]
      split
      case h_1 hread => simp [hread]
      case h_2 hread => simp [hread]
      case h_3 hread => simp [hread, Prod.ext_iff, and_assoc]

/-- **A stream comes to its end behind some functions exactly when these are read.** -/
theorem nextEach_eq_iff (hbuffered : stream.buffered = none) :
    stream.nextEach (listings.length + 1) = listings.map (.ok ∘ some) ++ [.ok none]
      ↔ readFunctions stream.reader = (listings, none) :=
  nextEach_eq_iff_readFunctions hbuffered none

/-- **The functions of a listing are those of its layout.** A stream hands out some functions and
comes to its end exactly when the lines of the text are, for each of them in order, blank lines, a
header, a summary, the lines of its instructions, at most one blank line, and sections with as many
rows as they announce, and blank lines behind the last. So no line is lost or taken twice, and a
listing that can be laid out so is read. -/
theorem readFunctions_eq_iff_laidOut (text : String) (listings : List FunctionListing) :
    let reader := LineReader.ofText text
    ((FunctionStream.ofReader reader).nextEach (listings.length + 1)
          = listings.map (.ok ∘ some) ++ [.ok none]
        ↔ LaidOut (splitLines text.toList) listings)
      ∧ (readFunctions reader = (listings, none) ↔ LaidOut (splitLines text.toList) listings) := by
  intro reader
  have hread : readFunctions reader = (listings, none)
      ↔ LaidOut (splitLines text.toList) listings := by
    unfold reader
    rw [ofText_eq]
    exact readFunctions_iff_laidOut _ 0 listings
  exact ⟨(nextEach_eq_iff rfl).trans hread, hread⟩

end LuaGlobals
