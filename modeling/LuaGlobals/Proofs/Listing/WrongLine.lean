import LuaGlobals.Proofs.Listing.Stream

/-! # The line of an error

A listing is read by loops that hand lines to each other, some of which are looked at twice. An
error names a line by the number of lines taken so far. That this is the line that is wrong, and
that nothing behind it matters, is shown of each loop and kept when one loop follows another.

* `LineFault` is what a line should have been, with the error that says so.
* `Takes` and `FailsAt` tell what a reading takes and where it fails, whatever stands behind; one
  that does either is `Local`.
* **`Local.seq`** and **`Local.of_front`**: one reading after another, or behind some lines.
* **`readFunctions_failsAt`**: a listing that is not read has a wrong line, or ends too early.
* **`wrong_line_located`**: the line that an error names. -/

namespace LuaGlobals

open Text

/-! ## Wrong lines -/

/-- What a line should have been. -/
inductive LineFault where
  /-- The header of a function. -/
  | header
  /-- The summary of a function. -/
  | summary
  /-- An instruction. -/
  | instruction
deriving DecidableEq, Repr

namespace LineFault

/-- Whether a line is not what it should have been, nor anything else that may stand there. -/
def Wrong : LineFault → List Char → Prop
  | .header, line => isBlankText line = false ∧ readHeader? line = none
  | .summary, line => isSummary line = false
  | .instruction, line =>
    isBlankText line = false ∧ endsCode line = false ∧ readInstruction? line = none

/-- The error on a line with a given number. -/
def error : LineFault → Nat → List Char → ListingError
  | .header, number, line => .noHeader number (String.ofList (trim line))
  | .summary, number, _ => .noSummary number
  | .instruction, number, line => .badInstruction number ⟨String.ofList (trim line)⟩

/-- What the message says of a line. -/
def complaint : LineFault → List Char → String
  | .header, line => "expected a function header, got " ++ quoteString (String.ofList (trim line))
  | .summary, _ => "missing parameter/slot summary"
  | .instruction, line => "Malformed instruction line: " ++ quoteString (String.ofList (trim line))

/-- A message names the line by its number. -/
theorem message_error (fault : LineFault) (number : Nat) (line : List Char) :
    (fault.error number line).message
      = "Line " ++ toString number ++ ": " ++ fault.complaint line := by
  cases fault with
  | header =>
      show "Line " ++ toString number ++ ": expected a function header, got " ++ _
        = "Line " ++ toString number ++ ": " ++ ("expected a function header, got " ++ _)
      have hsplit : ": expected a function header, got "
          = ": " ++ "expected a function header, got " := by simp
      rw [hsplit]
      simp only [String.append_assoc]
  | summary =>
      show "Line " ++ toString number ++ ": missing parameter/slot summary"
        = "Line " ++ toString number ++ ": " ++ "missing parameter/slot summary"
      have hsplit : ": missing parameter/slot summary"
          = ": " ++ "missing parameter/slot summary" := by simp
      rw [hsplit]
      simp only [String.append_assoc]
  | instruction => rfl

end LineFault

/-- The number of the line that an error names. -/
def ListingError.line? : ListingError → Option Nat
  | .noHeader line _ | .noSummary line | .badInstruction line _ => some line
  | .truncated _ => none

/-- An error on a line names it. -/
theorem line?_error (fault : LineFault) (number : Nat) (line : List Char) :
    (fault.error number line).line? = some number := by
  cases fault <;> rfl

/-! ## Readings that look at one line ahead -/

section

variable {α β : Type} {read : LineReader → Reading α} {reader left middle : LineReader}
  {value : α} {error : ListingError}

/-- **A reading takes lines off the front**, and gives the same whatever stands behind the next
line. -/
def Takes (read : LineReader → Reading α) (reader : LineReader) (value : α) (left : LineReader) :
    Prop :=
  ∃ taken, reader.remaining = taken ++ left.remaining
    ∧ left.consumed = reader.consumed + taken.length
    ∧ ∀ other : List (List Char), other.head? = left.remaining.head? →
        read ⟨taken ++ other, reader.consumed⟩ = (.ok value, ⟨other, left.consumed⟩)

/-- **Lines fail at a wrong line** when they stop with its error, whatever stands behind that
line. -/
def FailsAt (stops : LineReader → Prop) (reader : LineReader) (error : ListingError) : Prop :=
  ∃ before line after, ∃ fault : LineFault,
    reader.remaining = before ++ line :: after ∧ fault.Wrong line
      ∧ error = fault.error (reader.consumed + before.length + 1) line
      ∧ ∀ other, stops ⟨before ++ line :: other, reader.consumed⟩

/-- A failure of one loop is one of another that stops wherever the first does. -/
theorem FailsAt.imp {stops stopsToo : LineReader → Prop} (h : FailsAt stops reader error)
    (himp : ∀ reader, stops reader → stopsToo reader) : FailsAt stopsToo reader error := by
  obtain ⟨before, line, after, fault, hlines, hwrong, herror, hstops⟩ := h
  exact ⟨before, line, after, fault, hlines, hwrong, herror, fun other => himp _ (hstops other)⟩

/-- A failure behind lines that a reading takes. -/
theorem FailsAt.behind {stops stopsToo : LineReader → Prop} (h : FailsAt stops middle error)
    (htaken : Takes read reader value middle)
    (himp : ∀ reader left, read reader = (.ok value, left) → stops left → stopsToo reader) :
    FailsAt stopsToo reader error := by
  obtain ⟨taken, hlines, hnumber, hread⟩ := htaken
  obtain ⟨before, line, after, fault, hlater, hwrong, rfl, hstops⟩ := h
  refine ⟨taken ++ before, line, after, fault, ?_, hwrong, ?_, ?_⟩
  · rw [hlines, hlater, List.append_assoc]
  · rw [hnumber, List.length_append, Nat.add_assoc reader.consumed]
  · intro other
    -- The lines left start with the same line, up to the wrong one.
    have hhead : (before ++ line :: other).head? = middle.remaining.head? := by
      rw [hlater]
      cases before <;> rfl
    rw [List.append_assoc]
    exact himp _ _ (hread _ hhead) (hstops other)

/-- **A reading that looks at one line ahead** of what it takes: it takes lines, or else it fails at
one if its error names one. -/
structure Local (read : LineReader → Reading α) (reader : LineReader) : Prop where
  /-- What is read. -/
  takes : ∀ {left value}, read reader = (.ok value, left) → Takes read reader value left
  /-- What is not read. -/
  fails : ∀ {left error}, read reader = (.error error, left) → error.line?.isSome →
    FailsAt (fun reader => (read reader).1 = .error error) reader error

/-- A reading that takes nothing, as the next line tells. -/
theorem Local.of_leaves (value : α) {lines : List (List Char)} {consumed : Nat}
    (h : ∀ other : List (List Char), other.head? = lines.head? →
      read ⟨other, consumed⟩ = (.ok value, ⟨other, consumed⟩)) : Local read ⟨lines, consumed⟩ where
  takes := by
    intro left result hread
    rw [h lines rfl] at hread
    cases hread
    exact ⟨[], rfl, rfl, h⟩
  fails := by
    intro left error hread
    rw [h lines rfl] at hread
    cases hread

/-- A reading that takes nothing. -/
theorem local_ok (value : α) (reader : LineReader) :
    Local (fun reader => (.ok value, reader)) reader :=
  Local.of_leaves value fun _ _ => rfl

/-- A reading that fails at the next line. -/
theorem Local.of_wrong {line : List Char} {rest : List (List Char)} {consumed : Nat}
    {fault : LineFault} (hwrong : fault.Wrong line)
    (h : ∀ other, (read ⟨line :: other, consumed⟩).1 = .error (fault.error (consumed + 1) line)) :
    Local read ⟨line :: rest, consumed⟩ where
  takes := by
    intro left value hread
    have hfirst := h rest
    rw [hread] at hfirst
    cases hfirst
  fails := by
    intro left error hread _
    have hfirst := h rest
    rw [hread] at hfirst
    cases hfirst
    exact ⟨[], line, rest, fault, rfl, hwrong, rfl, h⟩

/-! ### One reading after another -/

/-- One reading after another. -/
def thenRead (first : LineReader → Reading α) (second : α → LineReader → Reading β)
    (reader : LineReader) : Reading β :=
  match first reader with
  | (.error error, left) => (.error error, left)
  | (.ok value, left) => second value left

/-- Where the first of two readings fails, both do. -/
theorem thenRead_of_error (second : α → LineReader → Reading β)
    (h : (read reader).1 = .error error) : (thenRead read second reader).1 = .error error := by
  rw [thenRead]
  generalize read reader = reading at h
  obtain ⟨result, left⟩ := reading
  obtain rfl : result = .error error := h
  rfl

/-- Lines that are taken by two readings, one after the other. -/
theorem Takes.seq {second : α → LineReader → Reading β} {result : β}
    (h : Takes read reader value middle) (hsecond : Takes (second value) middle result left) :
    Takes (thenRead read second) reader result left := by
  obtain ⟨taken, hlines, hnumber, hread⟩ := h
  obtain ⟨later, hlater, hlast, hreadLater⟩ := hsecond
  refine ⟨taken ++ later, by rw [hlines, hlater, List.append_assoc], ?_, ?_⟩
  · rw [hlast, hnumber, List.length_append, Nat.add_assoc]
  · intro other hother
    have hhead : (later ++ other).head? = middle.remaining.head? := by
      rw [hlater, List.head?_append, List.head?_append, hother]
    rw [thenRead, List.append_assoc, hread _ hhead]
    exact hreadLater other hother

/-- **One local reading after another** is local. -/
theorem Local.seq {second : α → LineReader → Reading β} (h : Local read reader)
    (hsecond : ∀ value middle, Local (second value) middle) :
    Local (thenRead read second) reader where
  takes := by
    intro left result hread
    unfold thenRead at hread
    split at hread
    case h_1 => cases (Prod.mk.inj hread).1
    case h_2 value middle hfirst =>
        exact (h.takes hfirst).seq ((hsecond value middle).takes hread)
  fails := by
    intro left error hread hline
    unfold thenRead at hread
    split at hread
    case h_1 hfirst =>
        cases hread
        exact (h.fails hfirst hline).imp fun _ => thenRead_of_error second
    case h_2 value middle hfirst =>
        refine ((hsecond value middle).fails hread hline).behind (h.takes hfirst) ?_
        intro reader left hother hstops
        rw [thenRead, hother]
        exact hstops

/-- **A reading that passes lines in front** is local when what it does behind them is. -/
theorem Local.of_front {later : LineReader → Reading α} {front rest : List (List Char)}
    {consumed : Nat}
    (hread : ∀ other, read ⟨front ++ other, consumed⟩ = later ⟨other, consumed + front.length⟩)
    (h : Local later ⟨rest, consumed + front.length⟩) : Local read ⟨front ++ rest, consumed⟩ where
  takes := by
    intro left value hvalue
    rw [hread] at hvalue
    obtain ⟨taken, hlines, hnumber, htaken⟩ := h.takes hvalue
    dsimp only at hlines hnumber htaken
    refine ⟨front ++ taken, by simp [hlines], ?_, ?_⟩
    · rw [hnumber, List.length_append, Nat.add_assoc]
    · intro other hother
      rw [List.append_assoc, hread]
      exact htaken other hother
  fails := by
    intro left error herror hline
    rw [hread] at herror
    obtain ⟨before, line, after, fault, hlines, hwrong, rfl, hfails⟩ := h.fails herror hline
    dsimp only at hlines hfails
    refine ⟨front ++ before, line, after, fault, by simp [hlines], hwrong, ?_, ?_⟩
    · dsimp only
      rw [List.length_append, Nat.add_assoc consumed]
    · intro other
      rw [List.append_assoc, hread]
      exact hfails other

end

/-! ## Code and sections -/

section

variable {line : List Char} {lines rest : List (List Char)}

/-- The code of a function, read from where a reader stands. -/
def codeReading (reader : LineReader) : Reading (List Instruction) :=
  readCode reader.consumed reader.remaining

/-- The sections of a function, read from where a reader stands. -/
def sectionsReading (reader : LineReader) : Reading SectionRows :=
  readSections reader.consumed reader.remaining

/-- Behind an instruction there is more code. -/
theorem readCode_cons {ins : Instruction} (h : readCodeLine line = .ok (.instruction ins))
    (consumed : Nat) (rest : List (List Char)) :
    readCode consumed (line :: rest)
      = thenRead codeReading (fun code reader => (.ok (ins :: code), reader))
          ⟨rest, consumed + 1⟩ := by
  have hends : ¬endsCode line = true := Bool.eq_false_iff.mp (endsCode_of_readCodeLine h)
  rw [readCode, if_neg hends, h, thenRead, codeReading]
  dsimp only
  generalize readCode (consumed + 1) rest = reading
  obtain ⟨code, left⟩ := reading
  cases code <;> rfl

/-- A line that is no code is neither blank nor an instruction. -/
theorem wrong_of_readCodeLine {cause : MalformedInstruction} (h : readCodeLine line = .error cause)
    (hends : endsCode line = false) :
    LineFault.instruction.Wrong line ∧ cause = ⟨String.ofList (trim line)⟩ := by
  unfold readCodeLine at h
  split at h
  case isTrue => cases h
  case isFalse hblank =>
      split at h
      case h_1 => cases h
      case h_2 hnone =>
          cases h
          exact ⟨⟨Bool.eq_false_iff.mpr hblank, hends, hnone⟩, rfl⟩

/-- **Reading code** looks at one line ahead. -/
theorem local_codeReading (lines : List (List Char)) (consumed : Nat) :
    Local codeReading ⟨lines, consumed⟩ := by
  induction lines generalizing consumed with
  | nil =>
      refine Local.of_leaves [] fun other hother => ?_
      obtain rfl := List.head?_eq_none_iff.mp hother
      rfl
  | cons line rest ih =>
      cases hends : endsCode line with
      | true =>
          -- The line is left, so it is still the next one.
          refine Local.of_leaves [] fun other hother => ?_
          obtain ⟨tail, rfl⟩ := List.head?_eq_some_iff.mp hother
          exact readCode_of_endsCode hends consumed
      | false =>
          match hline : readCodeLine line with
          | .ok .boundary =>
              have hread (other : List (List Char)) :
                  codeReading ⟨[line] ++ other, consumed⟩ = (.ok [], ⟨other, consumed + 1⟩) :=
                readCode_of_isBlankText (isBlankText_of_readCodeLine hline) consumed
              exact Local.of_front hread (local_ok [] _)
          | .ok (.instruction ins) =>
              have hread (other : List (List Char)) : codeReading ⟨[line] ++ other, consumed⟩
                  = thenRead codeReading (fun code reader => (.ok (ins :: code), reader))
                    ⟨other, consumed + 1⟩ := readCode_cons hline consumed other
              exact Local.of_front hread ((ih _).seq fun code => local_ok _)
          | .error cause =>
              obtain ⟨hwrong, rfl⟩ := wrong_of_readCodeLine hline hends
              refine Local.of_wrong hwrong fun other => ?_
              rw [codeReading, readCode, if_neg (Bool.eq_false_iff.mp hends), hline]
              rfl

/-- Behind a section with all its rows there are more sections. -/
theorem readSections_cons {kind : SectionKind} {rows : List (List Char)}
    (h : readSectionHeader? line = some (kind, rows.length)) (consumed : Nat)
    (rest : List (List Char)) :
    readSections consumed (line :: rows ++ rest)
      = thenRead sectionsReading (fun later reader => (.ok (later.add kind rows), reader))
          ⟨rest, consumed + (line :: rows).length⟩ := by
  have hlength : ¬(rows ++ rest).length < rows.length := by
    rw [List.length_append]
    omega
  rw [List.cons_append, readSections, thenRead, sectionsReading, h]
  dsimp only
  rw [if_neg hlength, List.take_left, List.drop_left, List.length_cons, Nat.add_comm rows.length,
    ← Nat.add_assoc]
  generalize readSections (consumed + 1 + rows.length) rest = reading
  obtain ⟨later, left⟩ := reading
  cases later <;> rfl

/-- **Reading sections** looks at one line ahead. -/
theorem local_sectionsReading (consumed : Nat) (lines : List (List Char)) :
    Local sectionsReading ⟨lines, consumed⟩ := by
  fun_induction readSections consumed lines with
  | case1 consumed =>
      refine Local.of_leaves .empty fun other hother => ?_
      obtain rfl := List.head?_eq_none_iff.mp hother
      rw [sectionsReading, readSections]
  | case2 consumed line rest hnone =>
      refine Local.of_leaves .empty fun other hother => ?_
      obtain ⟨tail, rfl⟩ := List.head?_eq_some_iff.mp hother
      rw [sectionsReading, readSections, hnone]
  | case3 consumed line rest kind count hheader hshort =>
      -- The listing ends within the rows, and the error names no line.
      have hread : sectionsReading ⟨line :: rest, consumed⟩
          = (.error (.truncated kind), ⟨[], consumed + 1 + rest.length⟩) := by
        rw [sectionsReading, readSections, hheader]
        exact if_pos hshort
      refine ⟨fun h => ?_, fun h hline => ?_⟩
      · rw [hread] at h
        cases h
      · rw [hread] at h
        cases h
        cases hline
  | case4 consumed line rest kind count hheader hlong later left hread ih =>
      have hcount : (rest.take count).length = count :=
        List.length_take_of_le (Nat.not_lt.mp hlong)
      have hlines : line :: rest = line :: rest.take count ++ rest.drop count := by simp
      have hannounced : readSectionHeader? line = some (kind, (rest.take count).length) := by
        rw [hcount, hheader]
      rw [hlines]
      refine Local.of_front (fun other => readSections_cons hannounced consumed other) ?_
      rw [List.length_cons, hcount, Nat.add_comm count, ← Nat.add_assoc]
      exact ih.seq fun later => local_ok _

/-! ## Functions -/

/-- Reading the body of a function is reading its code, then its sections. -/
theorem readBody_eq (opening : FunctionHeader) :
    readBody opening = thenRead codeReading fun instructions =>
      thenRead sectionsReading fun rows reader =>
        (.ok ⟨opening.kind, opening.source, opening.lineDefined, instructions,
          .ofRows rows.locals rows.upvalues⟩, reader) := by
  funext reader
  rw [readBody, thenRead, codeReading]
  generalize readCode reader.consumed reader.remaining = reading
  obtain ⟨code, middle⟩ := reading
  cases code with
  | error error => rfl
  | ok instructions =>
      dsimp only
      rw [thenRead, sectionsReading]
      generalize readSections middle.consumed middle.remaining = reading
      obtain ⟨rows, left⟩ := reading
      cases rows <;> rfl

/-- **Reading the body of a function** looks at one line ahead. -/
theorem local_readBody (opening : FunctionHeader) (reader : LineReader) :
    Local (readBody opening) reader := by
  rw [readBody_eq]
  refine (local_codeReading reader.remaining reader.consumed).seq ?_
  intro instructions middle
  exact (local_sectionsReading middle.consumed middle.remaining).seq fun rows => local_ok _

/-- **Reading what stands behind a header** looks at one line ahead, if there is a line. -/
theorem local_readAfterHeader (opening : FunctionHeader) (consumed : Nat) :
    Local (readAfterHeader opening) ⟨line :: rest, consumed⟩ := by
  cases hsummary : isSummary line with
  | true =>
      have hread (other : List (List Char)) :
          readAfterHeader opening ⟨[line] ++ other, consumed⟩
            = readBody opening ⟨other, consumed + 1⟩ := by
        rw [readAfterHeader]
        exact if_pos hsummary
      exact Local.of_front hread (local_readBody opening _)
  | false =>
      have hwrong : LineFault.summary.Wrong line := hsummary
      refine Local.of_wrong hwrong fun other => ?_
      rw [readAfterHeader]
      simp [hsummary, LineFault.error]

/-- Blank lines in front of a function are passed. -/
theorem readFunction_blanks {blanks : List (List Char)}
    (h : ∀ line ∈ blanks, isBlankText line = true) (consumed : Nat) (rest : List (List Char)) :
    readFunction ⟨blanks ++ rest, consumed⟩ = readFunction ⟨rest, consumed + blanks.length⟩ := by
  have hskip : (⟨blanks ++ rest, consumed⟩ : LineReader).skipBlankLines
      = (⟨rest, consumed + blanks.length⟩ : LineReader).skipBlankLines := by
    simp only [LineReader.skipBlankLines, List.dropWhile_append_of_pos h,
      List.takeWhile_append_of_pos h, List.length_append, Nat.add_assoc]
  simp only [readFunction, hskip]

/-- A line that is not blank is not passed. -/
theorem skipBlankLines_cons (h : isBlankText line = false) (consumed : Nat) :
    (⟨line :: rest, consumed⟩ : LineReader).skipBlankLines = ⟨line :: rest, consumed⟩ := by
  simp [LineReader.skipBlankLines, h]

/-- A header is read in front of what stands behind it. -/
theorem readFunction_cons {opening : FunctionHeader} (h : readHeader? line = some opening)
    (consumed : Nat) (rest : List (List Char)) :
    readFunction ⟨line :: rest, consumed⟩
      = thenRead (readAfterHeader opening) (fun listing reader => (.ok (some listing), reader))
          ⟨rest, consumed + 1⟩ := by
  have hblank : isBlankText line = false := by
    rw [← Bool.not_eq_true]
    intro hblank
    rw [(readHeader?_of_isBlankText hblank).1] at h
    cases h
  rw [readFunction, skipBlankLines_cons hblank, thenRead]
  simp only [h]
  generalize readAfterHeader opening _ = reading
  obtain ⟨listing, left⟩ := reading
  cases listing <;> rfl

/-- **Reading a function** looks at one line ahead, if its header is not the last line. -/
theorem local_readFunction (reader : LineReader) :
    Local readFunction reader
      ∨ ∃ blanks header number, reader.remaining = blanks ++ [header]
          ∧ (∀ line ∈ blanks, isBlankText line = true) ∧ (readHeader? header).isSome
          ∧ (readFunction reader).1 = .error (.noSummary number) := by
  obtain ⟨lines, consumed⟩ := reader
  have hlines := List.takeWhile_append_dropWhile (p := isBlankText) (l := lines)
  have hblanks : ∀ line ∈ lines.takeWhile isBlankText, isBlankText line = true :=
    fun _ => List.mem_takeWhile_imp
  rw [← hlines]
  generalize lines.takeWhile isBlankText = blanks at hblanks
  cases hrest : lines.dropWhile isBlankText with
  | nil =>
      refine .inl (Local.of_front (readFunction_blanks hblanks consumed) ?_)
      refine Local.of_leaves none fun other hother => ?_
      obtain rfl := List.head?_eq_none_iff.mp hother
      rfl
  | cons line rest =>
      have hblank : isBlankText line = false := by
        have hfirst := List.head?_dropWhile_not isBlankText lines
        rw [hrest] at hfirst
        simpa using hfirst
      match hheader : readHeader? line, rest with
      | none, rest =>
          refine .inl (Local.of_front (readFunction_blanks hblanks consumed) ?_)
          have hwrong : LineFault.header.Wrong line := ⟨hblank, hheader⟩
          refine Local.of_wrong hwrong fun other => ?_
          rw [readFunction, skipBlankLines_cons hblank]
          simp only [hheader]
          rfl
      | some opening, [] =>
          refine .inr ⟨blanks, line, consumed + blanks.length + 1, rfl, hblanks, ?_, ?_⟩
          · rw [hheader]
            rfl
          · rw [readFunction_blanks hblanks, readFunction_cons hheader]
            rfl
      | some opening, summary :: rest =>
          refine .inl (Local.of_front (readFunction_blanks hblanks consumed) ?_)
          have hread (other : List (List Char)) :
              readFunction ⟨[line] ++ other, consumed + blanks.length⟩
                = thenRead (readAfterHeader opening)
                    (fun listing reader => (.ok (some listing), reader))
                    ⟨other, consumed + blanks.length + 1⟩ := readFunction_cons hheader _ other
          exact Local.of_front hread
            ((local_readAfterHeader opening _).seq fun listing => local_ok _)

end

/-! ## Whole listings -/

section

variable {lines : List (List Char)} {listings : List FunctionListing} {error : ListingError}
  {reader : LineReader}

/-- **A listing ends too early** behind the header of a function, when that is the last line and the
functions before it are complete. -/
def EndsBehindHeader (lines : List (List Char)) (listings : List FunctionListing) : Prop :=
  ∃ front header, lines = front ++ [header] ∧ LaidOut front listings ∧ (readHeader? header).isSome

/-- Where no first function can be read, none is. -/
theorem readFunctions_of_error (h : (readFunction reader).1 = .error error) :
    readFunctions reader = ([], some error) := by
  rw [readFunctions_eq]
  generalize readFunction reader = reading at h
  obtain ⟨result, left⟩ := reading
  obtain rfl : result = .error error := h
  rfl

/-- **A listing that is not read has a wrong line**, or it ends behind a header. -/
theorem readFunctions_failsAt (h : readFunctions reader = (listings, some error))
    (hline : error.line?.isSome) :
    EndsBehindHeader reader.remaining listings
      ∨ FailsAt (fun reader => readFunctions reader = (listings, some error)) reader error := by
  induction listings generalizing reader with
  | nil =>
      rw [readFunctions_eq] at h
      split at h
      case h_1 first left hread =>
          cases h
          rcases local_readFunction reader with
            hlocal | ⟨blanks, header, -, hlines, hblanks, hheader, -⟩
          · exact .inr ((hlocal.fails hread hline).imp fun _ => readFunctions_of_error)
          · exact .inl ⟨blanks, header, hlines, laidOut_nil_iff.mpr hblanks, hheader⟩
      case h_2 => cases h
      case h_3 => cases h
  | cons listing listings ih =>
      rw [readFunctions_eq] at h
      split at h
      case h_1 => cases h
      case h_2 => cases h
      case h_3 first left hread =>
          obtain ⟨⟨rfl, hlater⟩, herror⟩ : (first = listing ∧ (readFunctions left).1 = listings)
              ∧ (readFunctions left).2 = some error := by simpa using h
          rcases ih (Prod.ext hlater herror) with hends | hfails
          · obtain ⟨front, header, hleft, hfront, hheader⟩ := hends
            obtain ⟨block, hblock, hlines⟩ := exists_block_of_readFunction hread
            refine .inl ⟨block.lines ++ front, header, ?_, ?_, hheader⟩
            · rw [hlines, hleft, List.append_assoc]
            · exact laidOut_cons_iff.mpr ⟨block, hblock, front, rfl, hfront⟩
          · rcases local_readFunction reader with hlocal | ⟨-, -, number, -, -, -, hstop⟩
            · refine .inr (hfails.behind (hlocal.takes hread) ?_)
              intro reader left hother hstops
              rw [readFunctions_eq, hother]
              simp [hstops]
            · rw [hread] at hstop
              cases hstop

/-- A summary behind the last header completes a function. -/
theorem LaidOut.concat {front : List (List Char)} {header summary : List Char}
    {opening : FunctionHeader} (h : LaidOut front listings)
    (hheader : readHeader? header = some opening) (hsummary : isSummary summary = true) :
    ∃ listing, LaidOut (front ++ [header, summary]) (listings ++ [listing]) := by
  obtain ⟨blocks, trailing, rfl, rfl, hblank⟩ := h
  let block : ListingBlock :=
    { blanks := trailing, header, opening, summary, code := [], instructions := [], gap := none
      sections := [], isBlank_blanks := hblank, opens := hheader, sumsUp := hsummary
      isCode := rfl, isBlank_gap := by rintro _ ⟨⟩ }
  refine ⟨block.listing, blocks ++ [block], [], ?_, by simp, List.forall_mem_nil _⟩
  simp [ListingBlock.lines, ListingBlock.body, block]

/-- **A listing that ends too early is completed by a summary**: there is one function more. -/
theorem EndsBehindHeader.readFunctions {summary : List Char} (h : EndsBehindHeader lines listings)
    (hsummary : isSummary summary = true) (consumed : Nat) :
    ∃ listing, readFunctions ⟨lines ++ [summary], consumed⟩ = (listings ++ [listing], none) := by
  obtain ⟨front, header, rfl, hfront, hheader⟩ := h
  obtain ⟨opening, hopening⟩ := Option.isSome_iff_exists.mp hheader
  obtain ⟨listing, hcomplete⟩ := hfront.concat hopening hsummary
  refine ⟨listing, ?_⟩
  rw [List.append_assoc, List.singleton_append, readFunctions_iff_laidOut]
  exact hcomplete

/-- **An error of a listing**: what a stream that is asked for one function after the other hands
out before it. -/
def StopsAt (text : String) (listings : List FunctionListing) (error : ListingError) : Prop :=
  (FunctionStream.ofReader (.ofText text)).nextEach (listings.length + 1)
    = listings.map (.ok ∘ some) ++ [.error error]

/-- A stream stops at the error at which reading stops. -/
theorem stopsAt_iff {text : String} :
    StopsAt text listings error
      ↔ LuaGlobals.readFunctions ⟨splitLines text.toList, 0⟩ = (listings, some error) := by
  rw [← ofText_eq]
  exact nextEach_eq_iff_readFunctions rfl (some error)

/-- **An error names the line that is wrong.** When a stream hands out some functions and then an
error that names a line, either the text ends behind the header of a function, or that line of the
text, counted from one, is not what it should have been. The message gives its number, and the line
itself without the blanks around it; and nothing behind the line matters: every text with the same
lines up to it has the same functions before the same error. -/
theorem wrong_line_located {text : String} {number : Nat} (h : StopsAt text listings error)
    (hline : error.line? = some number) :
    ¬EndsBehindHeader (splitLines text.toList) listings ↔
      ∃ before line after, ∃ fault : LineFault,
        splitLines text.toList = before ++ line :: after ∧ number = before.length + 1
          ∧ fault.Wrong line ∧ error = fault.error number line
          ∧ error.message = "Line " ++ toString number ++ ": " ++ fault.complaint line
          ∧ ∀ other : String,
            (splitLines other.toList).take number = (splitLines text.toList).take number →
              StopsAt other listings error := by
  rw [stopsAt_iff] at h
  constructor
  · intro hends
    have hfails := (readFunctions_failsAt h (by rw [hline]; rfl)).resolve_left hends
    obtain ⟨before, line, after, fault, hlines, hwrong, rfl, hstops⟩ := hfails
    dsimp only at hlines hstops
    rw [Nat.zero_add] at hline hstops ⊢
    obtain rfl : before.length + 1 = number := by
      rw [line?_error] at hline
      exact Option.some.inj hline
    refine ⟨before, line, after, fault, hlines, rfl, hwrong, rfl,
      fault.message_error _ line, fun other hsame => ?_⟩
    rw [stopsAt_iff]
    have hother := List.take_append_drop (before.length + 1) (splitLines other.toList)
    rw [hsame, hlines, List.take_length_add_append, List.append_assoc] at hother
    rw [← hother]
    exact hstops _
  · rintro ⟨before, line, after, fault, hlines, rfl, -, -, -, hsame⟩ hends
    -- With a summary behind it the same listing would be read without an error.
    have hsummary : isSummary "0 params,".toList = true := by decide
    have hbreaks : ∀ line ∈ splitLines text.toList ++ ["0 params,".toList],
        ∀ c ∈ line, isLineBreak c = false := by
      rw [List.forall_mem_append, List.forall_mem_singleton]
      exact ⟨isLineBreak_of_mem_splitLines _, forall_mem_of_all (by decide)⟩
    have hother := splitLines_joinLines hbreaks
    have hstops := hsame (String.ofList (joinLines _)) (by
      rw [String.toList_ofList, hother, List.take_append_of_le_length]
      rw [hlines, List.length_append, List.length_cons]
      omega)
    rw [stopsAt_iff, String.toList_ofList, hother] at hstops
    obtain ⟨listing, hread⟩ := hends.readFunctions hsummary 0
    rw [hread] at hstops
    cases (Prod.mk.inj hstops).2

/-- A listing with a wrong line behind a complete function, a blank line, and the header and the
summary of the next one. -/
def malformedListing : String :=
  "main <a.lua:0,0>
0+ params,
1 [1] RETURN 0 1
locals (1)
constants (7)

function <a.lua:1,2>
0 params,
 getglobal 1 -5
more"

/-- The complete function of that listing. -/
def malformedMain : FunctionListing :=
  { kind := .main
    source := "a.lua"
    lineDefined := 0
    instructions := [⟨1, 1, "RETURN", some 0, some 1, none, none, none⟩]
    scope := .ofRows ["constants (7)".toList] [] }

/-- The ninth line of that listing is named, and the lines behind it do not matter. -/
theorem malformedListing_stops :
    let listings := [malformedMain]
    let error : ListingError := .badInstruction 9 ⟨"getglobal 1 -5"⟩
    StopsAt malformedListing listings error ∧
    ∃ before line after, ∃ fault : LineFault,
      splitLines malformedListing.toList = before ++ line :: after ∧ 9 = before.length + 1
        ∧ fault.Wrong line ∧ error = fault.error 9 line
        ∧ error.message = "Line " ++ toString 9 ++ ": " ++ fault.complaint line
        ∧ ∀ other : String,
          (splitLines other.toList).take 9 = (splitLines malformedListing.toList).take 9 →
            StopsAt other listings error := by
  intro listings error
  have hstops : StopsAt malformedListing listings error := by
    unfold StopsAt
    decide +kernel
  -- The last line is no header.
  have hlast : (splitLines malformedListing.toList).getLast? = some "more".toList := by
    decide +kernel
  refine ⟨hstops, (wrong_line_located hstops rfl).mp ?_⟩
  rintro ⟨front, header, hlines, -, hheader⟩
  rw [hlines, List.getLast?_concat] at hlast
  obtain rfl := Option.some.inj hlast
  exact absurd hheader (by decide)

end

end LuaGlobals
