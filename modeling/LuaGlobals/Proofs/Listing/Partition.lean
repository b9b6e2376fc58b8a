import LuaGlobals.Listing.Stream
import LuaGlobals.Proofs.Text.Cut
import Mathlib.Data.List.Basic
import Mathlib.Data.List.TakeWhile

/-! # The lines of a listing that is read

Code, sections and blocks are read by loops that end at different lines, and most of these lines
belong to the next loop. That none is lost between two loops is said by the lines themselves: a
listing is read exactly when its lines can be laid out in blocks.

* `SectionLines` and `ListingBlock` are the lines of a section and of a block, with what they say.
* `LaidOut` is the layout of a listing: blocks, then blank lines.
* **`exists_block_of_readFunction`** and **`readFunction_block`**: a function is read off the lines
  of a block, and every block is read.
* **`readFunctions_iff_laidOut`**: the functions that are read are those of the layout. -/

namespace LuaGlobals

open Text

variable {line text rest : List Char}

/-! ## What opens a line

The readers of a line look at its first character that is not blank, so no line is both an
instruction and a header, and no header is one of a section. -/

/-- A word that is found gives the first character. -/
theorem head?_of_isPrefixOf? {c : Char} {word : List Char}
    (h : (c :: word).isPrefixOf? text = some rest) : text.head? = some c := by
  rw [← List.append_eq_of_isPrefixOf?_eq_some h]
  rfl

/-- The letters that open a header. -/
theorem head?_of_readHeader? (h : (readHeader? line).isSome) :
    (dropBlanks line).head? = some 'm' ∨ (dropBlanks line).head? = some 'f' := by
  cases hkind : readFunctionKind? (dropBlanks line) with
  | none => simp [readHeader?, hkind] at h
  | some opened =>
      unfold readFunctionKind? at hkind
      split at hkind
      case h_1 hmain => exact Or.inl (head?_of_isPrefixOf? hmain)
      case h_2 =>
        obtain ⟨rest, hfunction, -⟩ := Option.map_eq_some_iff.mp hkind
        exact Or.inr (head?_of_isPrefixOf? hfunction)

/-- The letters that open the header of a section. -/
theorem head?_of_readSectionHeader? (h : (readSectionHeader? line).isSome) :
    (dropBlanks line).head? = some 'c' ∨ (dropBlanks line).head? = some 'l'
      ∨ (dropBlanks line).head? = some 'u' := by
  cases hkind : readSectionKind? (dropBlanks line) with
  | none => simp [readSectionHeader?, hkind] at h
  | some opened =>
      obtain ⟨kind, -, hword⟩ := List.exists_of_findSome?_eq_some hkind
      obtain ⟨rest, hword, -⟩ := Option.map_eq_some_iff.mp hword
      cases kind with
      | constants => exact Or.inl (head?_of_isPrefixOf? hword)
      | locals => exact Or.inr (Or.inl (head?_of_isPrefixOf? hword))
      | upvalues => exact Or.inr (Or.inr (head?_of_isPrefixOf? hword))

/-- A blank line has no other character. -/
theorem dropBlanks_of_isBlankText (h : isBlankText line = true) : dropBlanks line = [] :=
  List.dropWhile_eq_nil_iff.mpr (List.all_eq_true.mp h)

/-- A digit opens an instruction. -/
theorem head?_of_readCodeLine {ins : Instruction}
    (h : readCodeLine line = .ok (.instruction ins)) :
    ∃ c, (dropBlanks line).head? = some c ∧ isDecimal c = true := by
  unfold readCodeLine at h
  split at h
  · cases h
  · cases hdrop : dropBlanks line with
    | nil => simp [readInstruction?, readNumber?, hdrop] at h
    | cons c rest =>
        refine ⟨c, rfl, ?_⟩
        cases hdigit : isDecimal c with
        | true => rfl
        | false => simp [readInstruction?, readNumber?, hdrop, hdigit] at h

/-- A line of code is blank when it ends the code. -/
theorem isBlankText_of_readCodeLine (h : readCodeLine line = .ok .boundary) :
    isBlankText line = true := by
  unfold readCodeLine at h
  split at h
  · assumption
  · split at h <;> cases h

/-- A blank line opens nothing. -/
theorem readHeader?_of_isBlankText (h : isBlankText line = true) :
    readHeader? line = none ∧ readSectionHeader? line = none := by
  have hhead : (dropBlanks line).head? = none := by rw [dropBlanks_of_isBlankText h, List.head?_nil]
  rw [← Option.not_isSome_iff_eq_none, ← Option.not_isSome_iff_eq_none]
  constructor
  · intro hheader
    rcases head?_of_readHeader? hheader with hword | hword <;> simp [hhead] at hword
  · intro hsection
    rcases head?_of_readSectionHeader? hsection with hword | hword | hword <;>
      simp [hhead] at hword

/-- The header of a function opens no section. -/
theorem readSectionHeader?_of_readHeader? (h : (readHeader? line).isSome) :
    readSectionHeader? line = none := by
  rw [← Option.not_isSome_iff_eq_none]
  intro hsection
  have hheader := head?_of_readHeader? h
  rcases head?_of_readSectionHeader? hsection with hword | hword | hword <;>
    simp [hword] at hheader

/-- An instruction opens nothing else. -/
theorem endsCode_of_readCodeLine {ins : Instruction}
    (h : readCodeLine line = .ok (.instruction ins)) : endsCode line = false := by
  obtain ⟨c, hhead, hdigit⟩ := head?_of_readCodeLine h
  -- The five letters are no digits.
  have hletter {d : Char} (hopen : (dropBlanks line).head? = some d) : isDecimal d = true := by
    rw [← Option.some.inj (hhead.symm.trans hopen)]
    exact hdigit
  rw [endsCode, Bool.or_eq_false_iff, ← Bool.not_eq_true, ← Bool.not_eq_true]
  constructor
  · intro hsection
    rcases head?_of_readSectionHeader? hsection with hword | hword | hword <;>
      exact absurd (hletter hword) (by decide)
  · intro hheader
    rcases head?_of_readHeader? hheader with hword | hword <;>
      exact absurd (hletter hword) (by decide)

/-! ## Blocks -/

/-- The lines of a section: its header, and as many rows as it announces. -/
structure SectionLines where
  /-- The kind of the section. -/
  kind : SectionKind
  /-- The header. -/
  header : List Char
  /-- The rows, which may be any lines. -/
  rows : List (List Char)
  /-- The header gives the kind and the number of the rows. -/
  announced : readSectionHeader? header = some (kind, rows.length)

/-- The lines of a section, in order. -/
def SectionLines.lines (part : SectionLines) : List (List Char) :=
  part.header :: part.rows

/-- The rows of several sections. -/
def rowsOf (parts : List SectionLines) : SectionRows :=
  parts.foldr (fun part later => .add part.kind part.rows later) .empty

/-- The lines of the block of a function. -/
structure ListingBlock where
  /-- The blank lines in front. -/
  blanks : List (List Char)
  /-- The header. -/
  header : List Char
  /-- What the header says. -/
  opening : FunctionHeader
  /-- The summary. -/
  summary : List Char
  /-- The lines of the code. -/
  code : List (List Char)
  /-- The instructions on these lines. -/
  instructions : List Instruction
  /-- The blank line that may end the code. -/
  gap : Option (List Char)
  /-- The sections. -/
  sections : List SectionLines
  /-- The lines in front are blank. -/
  isBlank_blanks : ∀ line ∈ blanks, isBlankText line = true
  /-- The header is one. -/
  opens : readHeader? header = some opening
  /-- The summary is one. -/
  sumsUp : isSummary summary = true
  /-- Each line of the code holds its instruction. -/
  isCode : code.map readCodeLine = instructions.map (.ok ∘ .instruction)
  /-- The line behind the code is blank. -/
  isBlank_gap : ∀ line ∈ gap, isBlankText line = true

namespace ListingBlock

/-- The lines behind the summary of a block. -/
def body (block : ListingBlock) : List (List Char) :=
  block.code ++ (block.gap.toList ++ block.sections.flatMap SectionLines.lines)

/-- The lines of a block, in order. -/
def lines (block : ListingBlock) : List (List Char) :=
  block.blanks ++ block.header :: block.summary :: block.body

/-- The function that a block shows. -/
def listing (block : ListingBlock) : FunctionListing :=
  { kind := block.opening.kind
    source := block.opening.source
    lineDefined := block.opening.lineDefined
    instructions := block.instructions
    scope := .ofRows (rowsOf block.sections).locals (rowsOf block.sections).upvalues }

/-- The header of a block is not blank. -/
theorem isBlankText_header (block : ListingBlock) : isBlankText block.header = false := by
  rw [← Bool.not_eq_true]
  intro hblank
  have hopens := (readHeader?_of_isBlankText hblank).1
  rw [block.opens] at hopens
  cases hopens

end ListingBlock

/-- **The layout of a listing**: the blocks of its functions one after the other, then blank
lines. -/
def LaidOut (lines : List (List Char)) (listings : List FunctionListing) : Prop :=
  ∃ (blocks : List ListingBlock) (trailing : List (List Char)),
    lines = blocks.flatMap ListingBlock.lines ++ trailing
      ∧ blocks.map ListingBlock.listing = listings
      ∧ ∀ line ∈ trailing, isBlankText line = true

section

variable {lines after : List (List Char)} {listing : FunctionListing}
  {listings : List FunctionListing} {instructions : List Instruction} {code : List (List Char)}

/-- Without functions there are blank lines only. -/
theorem laidOut_nil_iff : LaidOut lines [] ↔ ∀ line ∈ lines, isBlankText line = true := by
  constructor
  · rintro ⟨blocks, trailing, hlines, hlistings, hblank⟩
    obtain rfl := List.map_eq_nil_iff.mp hlistings
    rw [hlines]
    exact hblank
  · intro hblank
    exact ⟨[], lines, rfl, rfl, hblank⟩

/-- The lines of a first function are a block in front of the others. -/
theorem laidOut_cons_iff :
    LaidOut lines (listing :: listings) ↔
      ∃ block : ListingBlock, block.listing = listing
        ∧ ∃ after, lines = block.lines ++ after ∧ LaidOut after listings := by
  constructor
  · rintro ⟨blocks, trailing, hlines, hlistings, hblank⟩
    obtain ⟨block, blocks, rfl, hblock, hlistings⟩ := List.map_eq_cons_iff.mp hlistings
    rw [List.flatMap_cons, List.append_assoc] at hlines
    exact ⟨block, hblock, _, hlines, blocks, trailing, rfl, hlistings, hblank⟩
  · rintro ⟨block, hblock, after, hlines, blocks, trailing, hafter, hlistings, hblank⟩
    refine ⟨block :: blocks, trailing, ?_, ?_, hblank⟩
    · rw [List.flatMap_cons, List.append_assoc, ← hafter, hlines]
    · rw [List.map_cons, hblock, hlistings]

/-- A layout starts with a blank line or a header. -/
theorem LaidOut.head? (h : LaidOut lines listings) :
    ∀ line ∈ lines.head?, isBlankText line = true ∨ (readHeader? line).isSome := by
  intro line hline
  cases listings with
  | nil => exact Or.inl (laidOut_nil_iff.mp h line (List.mem_of_mem_head? hline))
  | cons listing listings =>
      obtain ⟨block, -, after, rfl, -⟩ := laidOut_cons_iff.mp h
      rw [ListingBlock.lines] at hline
      cases hblanks : block.blanks with
      | nil =>
          rw [hblanks] at hline
          obtain rfl : block.header = line := Option.some.inj hline
          exact Or.inr (by rw [block.opens]; rfl)
      | cons blank blanks =>
          rw [hblanks] at hline
          obtain rfl : blank = line := Option.some.inj hline
          exact Or.inl (block.isBlank_blanks blank (by rw [hblanks]; exact List.mem_cons_self))

/-- No section stands in front of the first block. -/
theorem LaidOut.readSectionHeader?_head? (h : LaidOut lines listings) :
    ∀ line ∈ lines.head?, readSectionHeader? line = none := by
  intro line hline
  rcases h.head? line hline with hblank | hheader
  · exact (readHeader?_of_isBlankText hblank).2
  · exact readSectionHeader?_of_readHeader? hheader

/-- **A blank line in front may be taken away**: the first block has one blank line less. -/
theorem LaidOut.of_cons (hblank : isBlankText line = true)
    (h : LaidOut (line :: lines) listings) : LaidOut lines listings := by
  cases listings with
  | nil =>
      rw [laidOut_nil_iff] at h ⊢
      exact (List.forall_mem_cons.mp h).2
  | cons listing listings =>
      rw [laidOut_cons_iff] at h ⊢
      obtain ⟨block, hlisting, after, hlines, hafter⟩ := h
      rw [ListingBlock.lines] at hlines
      cases hblanks : block.blanks with
      | nil =>
          -- The first line cannot be the header, which is not blank.
          rw [hblanks] at hlines
          rw [(List.cons.inj hlines).1, block.isBlankText_header] at hblank
          cases hblank
      | cons blank blanks =>
          rw [hblanks] at hlines
          have hrest : ∀ line ∈ blanks, isBlankText line = true := fun line hline =>
            block.isBlank_blanks line (by rw [hblanks]; exact List.mem_cons_of_mem _ hline)
          exact ⟨{ block with blanks, isBlank_blanks := hrest }, hlisting, after,
            (List.cons.inj hlines).2, hafter⟩

/-! ## Every block is read -/

/-- **The lines of code are read** up to a line at which code ends. -/
theorem readCode_append {consumed : Nat} {reader : LineReader}
    (hcode : code.map readCodeLine = instructions.map (.ok ∘ .instruction))
    (hend : readCode (consumed + code.length) after = (.ok [], reader)) :
    readCode consumed (code ++ after) = (.ok instructions, reader) := by
  induction code generalizing instructions consumed with
  | nil =>
      obtain rfl : instructions = [] := by simpa using hcode.symm
      exact hend
  | cons line code ih =>
      cases instructions with
      | nil => cases hcode
      | cons ins instructions =>
          obtain ⟨hline, hcode⟩ := List.cons.inj hcode
          have hends := Bool.eq_false_iff.mp (endsCode_of_readCodeLine hline)
          rw [List.length_cons, Nat.add_comm code.length, ← Nat.add_assoc] at hend
          rw [List.cons_append, readCode, if_neg hends, hline]
          simp only [Function.comp_apply, ih hcode hend]
          rfl

/-- Code ends at a blank line, which is taken. -/
theorem readCode_of_isBlankText (hblank : isBlankText line = true) (consumed : Nat) :
    readCode consumed (line :: lines) = (.ok [], ⟨lines, consumed + 1⟩) := by
  have hends : endsCode line = false := by
    obtain ⟨hheader, hsection⟩ := readHeader?_of_isBlankText hblank
    rw [endsCode, hheader, hsection]
    rfl
  rw [readCode, if_neg (Bool.eq_false_iff.mp hends), readCodeLine, if_pos hblank]

/-- Code ends at a line that opens something else, which is left. -/
theorem readCode_of_endsCode (hends : endsCode line = true) (consumed : Nat) :
    readCode consumed (line :: lines) = (.ok [], ⟨line :: lines, consumed⟩) := by
  rw [readCode, if_pos hends]

/-- **Sections are read** up to a line that opens none. -/
theorem readSections_append (parts : List SectionLines)
    (hafter : ∀ line ∈ after.head?, readSectionHeader? line = none) (consumed : Nat) :
    ∃ behind, readSections consumed (parts.flatMap SectionLines.lines ++ after)
      = (.ok (rowsOf parts), ⟨after, behind⟩) := by
  induction parts generalizing consumed with
  | nil =>
      refine ⟨consumed, ?_⟩
      rw [List.flatMap_nil, List.nil_append]
      cases after with
      | nil => rw [readSections]; rfl
      | cons line after => rw [readSections, hafter line rfl]; rfl
  | cons part parts ih =>
      obtain ⟨behind, hread⟩ := ih (consumed + 1 + part.rows.length)
      refine ⟨behind, ?_⟩
      -- As many lines as the header announces are rows, whatever they look like.
      have hcount : ¬(part.rows ++ (parts.flatMap SectionLines.lines ++ after)).length
          < part.rows.length := by
        rw [List.length_append]
        omega
      rw [List.flatMap_cons, SectionLines.lines, List.cons_append, List.cons_append,
        List.append_assoc, readSections]
      simp only [part.announced, if_neg hcount]
      rw [List.drop_left, List.take_left, hread]
      rfl

/-- Code ends behind the last instruction of a block: at the blank line of the block, at a section
of it, or at what follows the block, from which a blank line may be taken. -/
theorem readCode_gap (block : ListingBlock) (hafter : LaidOut after listings) (consumed : Nat) :
    ∃ left behind,
      readCode consumed
            (block.gap.toList ++ (block.sections.flatMap SectionLines.lines ++ after))
          = (.ok [], ⟨block.sections.flatMap SectionLines.lines ++ left, behind⟩)
        ∧ LaidOut left listings := by
  cases hgap : block.gap with
  | some blank =>
      have hblank := block.isBlank_gap blank hgap
      exact ⟨after, consumed + 1, readCode_of_isBlankText hblank consumed, hafter⟩
  | none =>
      rw [Option.toList_none, List.nil_append]
      cases block.sections with
      | cons part parts =>
          have hends : endsCode part.header = true := by
            rw [endsCode, part.announced]
            rfl
          exact ⟨after, consumed, readCode_of_endsCode hends consumed, hafter⟩
      | nil =>
          -- The block is at its end: a blank line behind it is taken off the next block.
          cases after with
          | nil => exact ⟨[], consumed, by rw [List.flatMap_nil, List.nil_append, readCode], hafter⟩
          | cons line after =>
              rcases hafter.head? line rfl with hblank | hheader
              · exact ⟨after, consumed + 1, readCode_of_isBlankText hblank consumed,
                  hafter.of_cons hblank⟩
              · have hends : endsCode line = true := by
                  rw [endsCode, hheader, Bool.or_true]
                exact ⟨line :: after, consumed, readCode_of_endsCode hends consumed, hafter⟩

/-- **The body of a block is read**, and at most a blank line in front of the next block with it. -/
theorem readBody_block (block : ListingBlock) (hafter : LaidOut after listings) (consumed : Nat) :
    ∃ left behind,
      readBody block.opening ⟨block.body ++ after, consumed⟩
          = (.ok block.listing, ⟨left, behind⟩)
        ∧ LaidOut left listings := by
  obtain ⟨left, middle, hend, hleft⟩ :=
    readCode_gap block hafter (consumed + block.code.length)
  have hcode := readCode_append block.isCode hend
  obtain ⟨behind, hsections⟩ :=
    readSections_append block.sections hleft.readSectionHeader?_head? middle
  refine ⟨left, behind, ?_, hleft⟩
  simp only [readBody, ListingBlock.body, List.append_assoc, hcode, hsections]
  rfl

/-- **Every block is read.** -/
theorem readFunction_block (block : ListingBlock) (hafter : LaidOut after listings)
    (consumed : Nat) :
    ∃ left behind,
      readFunction ⟨block.lines ++ after, consumed⟩
          = (.ok (some block.listing), ⟨left, behind⟩)
        ∧ LaidOut left listings := by
  have hskip (rest : List (List Char)) :
      (block.blanks ++ block.header :: rest).dropWhile isBlankText = block.header :: rest := by
    have hheader := Bool.eq_false_iff.mp block.isBlankText_header
    rw [List.dropWhile_append_of_pos block.isBlank_blanks, List.dropWhile_cons_of_neg hheader]
  obtain ⟨left, behind, hbody, hleft⟩ := readBody_block block hafter
    (consumed + ((block.lines ++ after).takeWhile isBlankText).length + 1 + 1)
  refine ⟨left, behind, ?_, hleft⟩
  rw [readFunction, LineReader.skipBlankLines]
  simp only [ListingBlock.lines, List.append_assoc, List.cons_append, hskip, block.opens,
    readAfterHeader, block.sumsUp, if_true] at hbody ⊢
  rw [hbody]
  rfl

/-! ## Every function is read off a block -/

/-- **The lines of code that is read** hold its instructions, and a blank line may end them. -/
theorem exists_of_readCode {consumed : Nat} {reader : LineReader}
    (h : readCode consumed lines = (.ok instructions, reader)) :
    ∃ (code : List (List Char)) (gap : Option (List Char)),
      lines = code ++ (gap.toList ++ reader.remaining)
        ∧ code.map readCodeLine = instructions.map (.ok ∘ .instruction)
        ∧ ∀ line ∈ gap, isBlankText line = true := by
  -- One case for each way in which code ends, then an instruction in front of more code.
  induction lines generalizing consumed instructions with
  | nil =>
      cases h
      exact ⟨[], none, rfl, rfl, by rintro _ ⟨⟩⟩
  | cons line lines ih =>
      rw [readCode] at h
      split at h
      case isTrue hends =>
        cases h
        exact ⟨[], none, rfl, rfl, by rintro _ ⟨⟩⟩
      case isFalse hends =>
        split at h
        case h_1 => cases (Prod.mk.inj h).1
        case h_2 hline =>
          cases h
          refine ⟨[], some line, rfl, rfl, ?_⟩
          rintro _ ⟨⟩
          exact isBlankText_of_readCodeLine hline
        case h_3 ins hline =>
          cases hread : readCode (consumed + 1) lines with
          | mk later left =>
              rw [hread] at h
              cases later with
              | error error => cases (Prod.mk.inj h).1
              | ok later =>
                  cases h
                  obtain ⟨code, gap, rfl, hcode, hgap⟩ := ih hread
                  refine ⟨line :: code, gap, rfl, ?_, hgap⟩
                  rw [List.map_cons, hcode, hline]
                  rfl

/-- **The lines of sections that are read** are headers, each with the rows that it announces. -/
theorem exists_of_readSections {consumed : Nat} {rows : SectionRows} {reader : LineReader}
    (h : readSections consumed lines = (.ok rows, reader)) :
    ∃ parts, lines = parts.flatMap SectionLines.lines ++ reader.remaining
      ∧ rows = rowsOf parts := by
  fun_induction readSections consumed lines generalizing rows reader with
  | case1 consumed =>
      cases h
      exact ⟨[], rfl, rfl⟩
  | case2 consumed line rest hnone =>
      cases h
      exact ⟨[], rfl, rfl⟩
  | case3 consumed line rest kind count hheader hshort => cases (Prod.mk.inj h).1
  | case4 consumed line rest kind count hheader hlong later left hread ih =>
      cases later with
      | error error => cases (Prod.mk.inj h).1
      | ok later =>
          obtain ⟨parts, hrest, hrows⟩ := ih hread
          have hcount : (rest.take count).length = count :=
            List.length_take_of_le (Nat.not_lt.mp hlong)
          have hannounced : readSectionHeader? line = some (kind, (rest.take count).length) := by
            rw [hcount, hheader]
          cases h
          refine ⟨⟨kind, line, rest.take count, hannounced⟩ :: parts, ?_, ?_⟩
          · rw [List.flatMap_cons, SectionLines.lines, List.cons_append, List.cons_append,
              List.append_assoc, ← hrest, List.take_append_drop]
          · rw [hrows]
            rfl

/-- The parts of a body that is read. -/
theorem exists_of_readBody {opening : FunctionHeader} {reader left : LineReader}
    (h : readBody opening reader = (.ok listing, left)) :
    ∃ instructions rows middle,
      readCode reader.consumed reader.remaining = (.ok instructions, middle)
        ∧ readSections middle.consumed middle.remaining = (.ok rows, left)
        ∧ listing = ⟨opening.kind, opening.source, opening.lineDefined, instructions,
          .ofRows rows.locals rows.upvalues⟩ := by
  unfold readBody at h
  split at h
  case h_1 => cases (Prod.mk.inj h).1
  case h_2 instructions middle hcode =>
    split at h
    case h_1 => cases (Prod.mk.inj h).1
    case h_2 rows left hsections =>
      cases h
      exact ⟨instructions, rows, middle, hcode, hsections, rfl⟩

/-- The lines behind a header are a summary and a body that is read. -/
theorem exists_of_readAfterHeader {opening : FunctionHeader} {reader left : LineReader}
    (h : readAfterHeader opening reader = (.ok listing, left)) :
    ∃ summary body, reader.remaining = summary :: body ∧ isSummary summary = true
      ∧ readBody opening ⟨body, reader.consumed + 1⟩ = (.ok listing, left) := by
  unfold readAfterHeader at h
  split at h
  case h_1 => cases (Prod.mk.inj h).1
  case h_2 summary body hlines =>
    dsimp only at h
    split at h
    case isTrue hsummary => exact ⟨summary, body, hlines, hsummary, h⟩
    case isFalse => cases (Prod.mk.inj h).1

/-- The lines of a function are blank lines, a header and what stands behind it. -/
theorem exists_of_readFunction {reader left : LineReader}
    (h : readFunction reader = (.ok (some listing), left)) :
    ∃ blanks header opening rest consumed,
      reader.remaining = blanks ++ header :: rest
        ∧ (∀ line ∈ blanks, isBlankText line = true) ∧ readHeader? header = some opening
        ∧ readAfterHeader opening ⟨rest, consumed⟩ = (.ok listing, left) := by
  have hlines := List.takeWhile_append_dropWhile (p := isBlankText) (l := reader.remaining)
  unfold readFunction LineReader.skipBlankLines at h
  dsimp only at h
  split at h
  case h_1 => cases (Prod.mk.inj h).1
  case h_2 header rest hrest =>
    rw [hrest] at hlines
    split at h
    case h_1 => cases (Prod.mk.inj h).1
    case h_2 opening hopening =>
      generalize hread : readAfterHeader opening _ = reading at h
      obtain ⟨result, after⟩ := reading
      cases result with
      | error error => cases (Prod.mk.inj h).1
      | ok function =>
          cases h
          exact ⟨_, header, opening, rest, _, hlines.symm, fun _ => List.mem_takeWhile_imp,
            hopening, hread⟩

/-- **A function is read off the lines of a block.** -/
theorem exists_block_of_readFunction {reader left : LineReader}
    (h : readFunction reader = (.ok (some listing), left)) :
    ∃ block : ListingBlock, block.listing = listing
      ∧ reader.remaining = block.lines ++ left.remaining := by
  obtain ⟨blanks, header, opening, rest, consumed, hlines, hblanks, hopening, hread⟩ :=
    exists_of_readFunction h
  obtain ⟨summary, body, hrest, hsummary, hread⟩ := exists_of_readAfterHeader hread
  obtain ⟨instructions, rows, middle, hcode, hsections, rfl⟩ := exists_of_readBody hread
  obtain ⟨code, gap, hbody, hinstructions, hgap⟩ := exists_of_readCode hcode
  obtain ⟨parts, hmiddle, rfl⟩ := exists_of_readSections hsections
  dsimp only at hrest hbody
  -- Each reader took the front of what the one before it had left.
  refine ⟨{ blanks, header, opening, summary, code, instructions, gap, sections := parts
            isBlank_blanks := hblanks, opens := hopening, sumsUp := hsummary
            isCode := hinstructions, isBlank_gap := hgap }, rfl, ?_⟩
  rw [hlines, hrest, hbody, hmiddle]
  simp only [ListingBlock.lines, ListingBlock.body, List.append_assoc, List.cons_append]

/-! ## Whole listings -/

/-- There is no function exactly when only blank lines are left. -/
theorem readFunction_eq_none_iff {reader left : LineReader} :
    readFunction reader = (.ok none, left) ↔
      (∀ line ∈ reader.remaining, isBlankText line = true) ∧ left = reader.skipBlankLines := by
  rw [← List.dropWhile_eq_nil_iff]
  constructor
  · intro h
    unfold readFunction at h
    dsimp only at h
    split at h
    case h_1 hlines =>
      cases h
      exact ⟨hlines, rfl⟩
    case h_2 header rest hrest =>
      split at h
      case h_1 => cases (Prod.mk.inj h).1
      case h_2 opening hopening =>
        generalize readAfterHeader opening _ = reading at h
        obtain ⟨result, after⟩ := reading
        cases result <;> cases (Prod.mk.inj h).1
  · rintro ⟨hblank, rfl⟩
    simp only [readFunction, LineReader.skipBlankLines, hblank]

/-- Reading all functions of a listing, without the measure of the recursion. -/
theorem readFunctions_eq (reader : LineReader) :
    readFunctions reader =
      match readFunction reader with
      | (.error error, _) => ([], some error)
      | (.ok none, _) => ([], none)
      | (.ok (some listing), after) =>
        (listing :: (readFunctions after).1, (readFunctions after).2) := by
  rw [readFunctions]
  split
  case h_1 hread => rw [hread]
  case h_2 hread => rw [hread]
  case h_3 hread => rw [hread]

/-- No functions are read, without an error, where there is none. -/
theorem readFunctions_eq_nil_iff {reader : LineReader} :
    readFunctions reader = ([], none) ↔ ∃ left, readFunction reader = (.ok none, left) := by
  rw [readFunctions_eq]
  split
  case h_1 hread => simp [hread]
  case h_2 hread => simp [hread]
  case h_3 hread => simp [hread]

/-- The first of the functions that are read is the next one, and the others are read behind it. -/
theorem readFunctions_eq_cons_iff {reader : LineReader} :
    readFunctions reader = (listing :: listings, none) ↔
      ∃ left, readFunction reader = (.ok (some listing), left)
        ∧ readFunctions left = (listings, none) := by
  rw [readFunctions_eq]
  split
  case h_1 hread => simp [hread]
  case h_2 hread => simp [hread]
  case h_3 first left hread => simp [hread, Prod.ext_iff, and_assoc]

/-- **The functions that are read are those of a layout of the lines.** -/
theorem readFunctions_iff_laidOut (lines : List (List Char)) (consumed : Nat)
    (listings : List FunctionListing) :
    readFunctions ⟨lines, consumed⟩ = (listings, none) ↔ LaidOut lines listings := by
  induction listings generalizing lines consumed with
  | nil =>
      rw [readFunctions_eq_nil_iff, laidOut_nil_iff]
      simp only [readFunction_eq_none_iff, exists_and_left, exists_eq, and_true]
  | cons listing listings ih =>
      rw [readFunctions_eq_cons_iff]
      constructor
      · rintro ⟨left, hread, hlistings⟩
        obtain ⟨block, hblock, hlines⟩ := exists_block_of_readFunction hread
        exact laidOut_cons_iff.mpr
          ⟨block, hblock, left.remaining, hlines, (ih left.remaining left.consumed).mp hlistings⟩
      · intro h
        -- What is left behind the block is a layout as well, with or without its first blank line.
        obtain ⟨block, rfl, after, rfl, hafter⟩ := laidOut_cons_iff.mp h
        obtain ⟨left, behind, hread, hleft⟩ := readFunction_block block hafter consumed
        exact ⟨⟨left, behind⟩, hread, (ih left behind).mpr hleft⟩

/-- The lines of a text stand before its reader as they are. -/
theorem ofText_eq (text : String) : LineReader.ofText text = ⟨splitLines text.toList, 0⟩ := by
  have hends : (splitLines text.toList).map dropLineEnd = splitLines text.toList :=
    (List.map_congr_left fun line hline =>
      dropLineEnd_eq_self (isLineBreak_of_mem_splitLines text.toList line hline)).trans
      (List.map_id _)
  rw [LineReader.ofText, LineReader.ofLines, hends]

/-- The lines of a text that is given by its characters. -/
theorem ofText_ofList (chars : List Char) :
    LineReader.ofText (String.ofList chars) = ⟨splitLines chars, 0⟩ := by
  rw [ofText_eq, String.toList_ofList]

end

end LuaGlobals
