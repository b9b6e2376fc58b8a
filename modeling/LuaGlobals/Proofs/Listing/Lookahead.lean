import LuaGlobals.Proofs.Listing.Stream
import Mathlib.Data.List.Induction

/-! # Looking ahead in a stream

A stream may be asked for its next function and for the outermost one, in any order. Where it stands
is kept in its reader, in a buffer and in whether it was started; what counts is the row of
functions that it has still to hand out.

* `FunctionStream.pending` is that row, and `FunctionStream.Sound` the invariant of a stream.
* **`FunctionStream.Sound.next`** and **`FunctionStream.Sound.peekOutermost`**: what one call
  answers and leaves.
* **`FunctionStream.Sound.behind`**: the same for any row of calls.
* **`lookahead_transparent`**: looking at the outermost function never changes what is handed
  out. -/

namespace LuaGlobals

variable {listings : List FunctionListing}

namespace FunctionStream

/-! ## The functions to come -/

/-- The functions that a stream has still to hand out: the one in its buffer, then those that are
read from the lines left. -/
def pending (stream : FunctionStream) : List FunctionListing :=
  stream.buffered.toList ++ (readFunctions stream.reader).1

/-- **A stream within a listing**: what is left of it can be read, and the first function is known
as soon as the stream was started. -/
structure Sound (listings : List FunctionListing) (stream : FunctionStream) : Prop where
  /-- The lines left hold no error. -/
  readable : (readFunctions stream.reader).2 = none
  /-- Before the start everything is still to come. -/
  fresh : stream.started = false →
    stream.buffered = none ∧ stream.outermost = none ∧ stream.pending = listings
  /-- Behind the start the outermost function is the first of the listing. -/
  started : stream.started = true → stream.outermost = listings.head?

variable {stream : FunctionStream}

/-- Before its first line a stream has the functions of the listing to hand out. -/
theorem sound_ofReader {reader : LineReader} (h : readFunctions reader = (listings, none)) :
    (ofReader reader).Sound listings where
  readable := by rw [ofReader, h]
  fresh _ := ⟨rfl, rfl, by simp [pending, ofReader, h]⟩
  started h := nomatch h

/-- **Reading takes the first of the functions left**, and starts the stream. -/
theorem read_of_readable (h : (readFunctions stream.reader).2 = none) :
    ∃ reader,
      stream.read = (.ok (readFunctions stream.reader).1.head?,
          { stream with
            reader
            outermost := if stream.started then stream.outermost
              else (readFunctions stream.reader).1.head?.or stream.outermost
            started := true })
        ∧ readFunctions reader = ((readFunctions stream.reader).1.tail, none) := by
  rw [readFunctions_eq] at h
  rw [readFunctions_eq, read]
  cases hread : readFunction stream.reader with
  | mk result reader =>
      rw [hread] at h
      cases result with
      | error error => cases h
      | ok listing? =>
          cases listing? with
          | none =>
              -- Only blank lines were left, and behind them there is nothing.
              have hdone : readFunctions reader = ([], none) := by
                rw [readFunctions_eq_nil_iff]
                refine ⟨_, readFunction_eq_none_iff.mpr ⟨?_, rfl⟩⟩
                simp [remaining_of_readFunction hread]
              exact ⟨reader, by simp, hdone⟩
          | some listing => exact ⟨reader, by simp, Prod.ext rfl h⟩

/-- **The next call** hands out the first function to come. -/
theorem Sound.next (h : stream.Sound listings) :
    stream.next.1 = .ok stream.pending.head?
      ∧ stream.next.2.pending = stream.pending.tail
      ∧ stream.next.2.Sound listings := by
  cases hbuffered : stream.buffered with
  | some listing =>
      -- A buffer is filled only in a stream that was started.
      have hstarted : stream.started = true := by
        rw [← Bool.not_eq_false]
        intro hfresh
        simp [(h.fresh hfresh).1] at hbuffered
      simp only [FunctionStream.next, pending, hbuffered]
      exact ⟨rfl, rfl, h.readable, fun hfresh => by simp [hstarted] at hfresh, h.started⟩
  | none =>
      obtain ⟨reader, hread, hrest⟩ := read_of_readable h.readable
      simp only [FunctionStream.next, pending, hbuffered, hread, Option.toList_none,
        List.nil_append]
      refine ⟨trivial, by rw [hrest], by rw [hrest], fun hfresh => by simp at hfresh, ?_⟩
      intro _
      cases hstarted : stream.started with
      | true => simpa using h.started hstarted
      | false =>
          obtain ⟨-, houtermost, hall⟩ := h.fresh hstarted
          rw [pending, hbuffered, Option.toList_none, List.nil_append] at hall
          simp [houtermost, hall]

/-- **A look at the outermost function** gives the first of the listing, and leaves everything to
come. -/
theorem Sound.peekOutermost (h : stream.Sound listings) :
    stream.peekOutermost.1 = .ok listings.head?
      ∧ stream.peekOutermost.2.pending = stream.pending
      ∧ stream.peekOutermost.2.Sound listings := by
  rw [FunctionStream.peekOutermost]
  cases hstarted : stream.started with
  | true =>
      rw [if_pos rfl]
      exact ⟨by rw [h.started hstarted], rfl, h⟩
  | false =>
      obtain ⟨hbuffered, houtermost, hall⟩ := h.fresh hstarted
      obtain ⟨reader, hread, hrest⟩ := read_of_readable h.readable
      have hlistings : (readFunctions stream.reader).1 = listings := by
        rw [← hall, pending, hbuffered]
        rfl
      rw [hlistings] at hread hrest
      -- The first function goes to the buffer, from which it will be handed out.
      have hpending : listings.head?.toList ++ listings.tail = listings := by
        cases listings <;> rfl
      simp only [hread, hstarted, houtermost, Option.or_none, Bool.false_eq_true, if_false]
      refine ⟨trivial, ?_, by rw [hrest], fun hfresh => by simp at hfresh, fun _ => rfl⟩
      rw [hall, pending, hrest]
      exact hpending

/-! ## Any row of calls -/

/-- The calls that a stream answers. -/
inductive Call where
  /-- Hand out the next function. -/
  | next
  /-- Look at the outermost function. -/
  | outermost
deriving DecidableEq, Repr

/-- The stream behind one call. -/
def call (stream : FunctionStream) : Call → FunctionStream
  | .next => stream.next.2
  | .outermost => stream.peekOutermost.2

/-- The stream behind several calls. -/
def behind (stream : FunctionStream) (calls : List Call) : FunctionStream :=
  calls.foldl call stream

/-- Behind one more call. -/
theorem behind_concat (stream : FunctionStream) (calls : List Call) (last : Call) :
    stream.behind (calls ++ [last]) = (stream.behind calls).call last := by
  simp [behind]

/-- **Behind any row of calls** as many functions were handed out as were asked for. -/
theorem Sound.behind (h : stream.Sound listings) (calls : List Call) :
    (stream.behind calls).pending = stream.pending.drop (calls.count .next)
      ∧ (stream.behind calls).Sound listings := by
  induction calls using List.reverseRecOn with
  | nil => exact ⟨rfl, h⟩
  | append_singleton calls last ih =>
      obtain ⟨hpending, hsound⟩ := ih
      rw [behind_concat, List.count_append]
      cases last with
      | next =>
          obtain ⟨-, htail, hsound⟩ := hsound.next
          refine ⟨?_, hsound⟩
          rw [call, htail, hpending, List.tail_drop]
          simp
      | outermost =>
          obtain ⟨-, hsame, hsound⟩ := hsound.peekOutermost
          refine ⟨?_, hsound⟩
          rw [call, hsame, hpending]
          simp

/-- Plain iteration asks for one function after the other. -/
theorem nextEach_behind
    (h : ∀ calls, (stream.behind calls).next.1 = .ok listings[calls.count .next]?)
    (asked count : Nat) :
    (stream.behind (List.replicate asked .next)).nextEach count
      = (List.range' asked count).map fun place => .ok listings[place]? := by
  induction count generalizing asked with
  | zero => rfl
  | succ count ih =>
      have hfirst := h (List.replicate asked .next)
      have hlater := ih (asked + 1)
      rw [List.replicate_succ', behind_concat, call] at hlater
      rw [nextEach, hlater, hfirst, List.count_replicate_self]
      rfl

end FunctionStream

open FunctionStream

/-- **Looking at the outermost function never changes what is handed out.** That a stream hands out
some functions one after the other, and then comes to its end, is to say the following of every row
of calls, in whatever order functions were asked for and the outermost one was looked at: the next
function handed out is the one in the listing that has as many before it as were asked for, or none
behind the last; and a look at the outermost function gives the first one of the listing, or none if
there is none. -/
theorem lookahead_transparent (reader : LineReader) (listings : List FunctionListing) :
    (ofReader reader).nextEach (listings.length + 1) = listings.map (.ok ∘ some) ++ [.ok none]
      ↔ ∀ earlier : List Call,
          ((ofReader reader).behind earlier).next.1 = .ok listings[earlier.count .next]?
            ∧ ((ofReader reader).behind earlier).peekOutermost.1 = .ok listings.head? := by
  constructor
  · intro h earlier
    have hread : readFunctions reader = (listings, none) := (nextEach_eq_iff rfl).mp h
    obtain ⟨hpending, hsound⟩ := (sound_ofReader hread).behind earlier
    refine ⟨?_, hsound.peekOutermost.1⟩
    have hall : (ofReader reader).pending = listings := ((sound_ofReader hread).fresh rfl).2.2
    rw [hsound.next.1, hpending, hall, List.head?_drop]
  · intro h
    have hplain := nextEach_behind (fun calls => (h calls).1) 0 (listings.length + 1)
    rw [List.replicate_zero, FunctionStream.behind, List.foldl_nil] at hplain
    rw [hplain, ← List.range_eq_range', List.range_succ, List.map_append]
    congr 1
    · apply List.ext_getElem (by simp)
      intro place hplace _
      have hlisting : place < listings.length := by simpa using hplace
      simp [hlisting]
    · simp

end LuaGlobals
