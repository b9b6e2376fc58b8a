import LuaGlobals.Proofs.Instruction.RoundTrip
import LuaGlobals.Proofs.Listing.Layout
import LuaGlobals.Proofs.Listing.Stream

/-! # Printed listings are read back

The lines of a printed function are those of a block. No row of a section is looked at, so rows may
hold any text.

* `PrintedFunction.Printable` is what a block can show of a function.
* **`PrintedFunction.Printable.block`** is the block, with the lines and the function that belong to
  it.
* **`readFunctions_printListing`**: a printed listing gives its functions back. -/

namespace LuaGlobals

open Text

variable {function : PrintedFunction} {functions : List PrintedFunction}

/-! ## Blocks -/

/-- The lines of a printed section. -/
def printedSection (kind : SectionKind) (rows : List String) (address : Nat) : SectionLines where
  kind := kind
  header := printSectionHeader kind rows.length address
  rows := rows.map String.toList
  announced := by
    rw [List.length_map]
    exact readSectionHeader?_printSectionHeader kind rows.length address

/-- **What a listing can show of a function**: code that is read off lines, and texts without line
breaks. -/
structure PrintedFunction.Printable (function : PrintedFunction) : Prop where
  /-- Some line holds each instruction. -/
  isRead : ∀ ins ∈ function.instructions, ∃ line, readCodeLine line = .ok (.instruction ins)
  /-- No text holds a line break. -/
  oneLine : ∀ text ∈ function.texts, ∀ c ∈ text.toList, isLineBreak c = false

/-- The instructions of a printed function are read back. -/
theorem PrintedFunction.Printable.readCodeLine_eq (h : function.Printable) {ins : Instruction}
    (hins : ins ∈ function.instructions) : readCodeLine ins.print = .ok (.instruction ins) := by
  obtain ⟨line, hline⟩ := h.isRead ins hins
  exact readCodeLine_print (spelled_of_readCodeLine hline)

/-- **A printed function is a block**, with one blank line in front and none behind the code. -/
def PrintedFunction.Printable.block (h : function.Printable) : ListingBlock where
  blanks := [[]]
  header := function.header
  opening := ⟨function.kind, function.source, function.lineDefined⟩
  summary := function.summary
  code := function.instructions.map Instruction.print
  instructions := function.instructions
  gap := none
  sections := [
    printedSection .constants function.constants function.layout.address,
    printedSection .locals function.locals function.layout.address,
    printedSection .upvalues function.upvalues function.layout.address]
  isBlank_blanks := by
    rw [List.forall_mem_singleton]
    rfl
  opens := readHeader?_header (h.oneLine function.source (by simp [PrintedFunction.texts]))
  sumsUp := isSummary_summary function
  isCode := by
    rw [List.map_map]
    exact List.map_congr_left fun ins hins => h.readCodeLine_eq hins
  isBlank_gap := by rintro _ ⟨⟩

/-- The block has the lines of the printed function. -/
theorem PrintedFunction.Printable.block_lines (h : function.Printable) :
    h.block.lines = function.lines := by
  simp [ListingBlock.lines, ListingBlock.body, block, SectionLines.lines, printedSection,
    PrintedFunction.lines, PrintedFunction.sections, printSection]

/-- The block shows the printed function. -/
theorem PrintedFunction.Printable.block_listing (h : function.Printable) :
    h.block.listing = function.listing := by
  simp [ListingBlock.listing, block, rowsOf, printedSection, SectionRows.add, SectionRows.empty,
    PrintedFunction.listing]

/-- The rows of a section hold no line break when their texts hold none. -/
theorem isLineBreak_of_mem_printSection {rows : List String}
    (h : ∀ text ∈ rows, ∀ c ∈ text.toList, isLineBreak c = false) (kind : SectionKind)
    (address : Nat) :
    ∀ line ∈ printSection kind rows address, ∀ c ∈ line, isLineBreak c = false := by
  refine List.forall_mem_cons.mpr ⟨isLineBreak_of_mem_printSectionHeader kind _ address, ?_⟩
  exact List.forall_mem_map.mpr h

/-- The lines of a printed function hold no line break. -/
theorem isLineBreak_of_mem_lines (h : function.Printable) :
    ∀ line ∈ function.lines, ∀ c ∈ line, isLineBreak c = false := by
  obtain ⟨⟨⟨⟨hsource, hcode⟩, hconstants⟩, hlocals⟩, hupvalues⟩ := by
    simpa only [PrintedFunction.texts, List.forall_mem_append, List.forall_mem_cons,
      List.forall_mem_flatMap] using h.oneLine
  have hinstructions : ∀ ins ∈ function.instructions, ∀ c ∈ ins.print, isLineBreak c = false := by
    intro ins hins
    obtain ⟨line, hline⟩ := h.isRead ins hins
    exact isLineBreak_of_mem_print (spelled_of_readCodeLine hline) (hcode ins hins)
  simp only [PrintedFunction.lines, PrintedFunction.sections, List.forall_mem_cons,
    List.forall_mem_append, List.forall_mem_map]
  exact ⟨List.forall_mem_nil _, isLineBreak_of_mem_header hsource,
    isLineBreak_of_mem_summary function, hinstructions,
    ⟨isLineBreak_of_mem_printSection hconstants _ _, isLineBreak_of_mem_printSection hlocals _ _⟩,
    isLineBreak_of_mem_printSection hupvalues _ _⟩

/-! ## Listings -/

/-- **Printed blocks are a layout** of the functions that they stand for. -/
theorem laidOut_flatMap (h : ∀ function ∈ functions, function.Printable) :
    LaidOut (functions.flatMap PrintedFunction.lines)
      (functions.map PrintedFunction.listing) := by
  induction functions with
  | nil => exact laidOut_nil_iff.mpr (List.forall_mem_nil _)
  | cons function functions ih =>
      obtain ⟨hfunction, hrest⟩ := List.forall_mem_cons.mp h
      refine laidOut_cons_iff.mpr ⟨hfunction.block, hfunction.block_listing, _, ?_, ih hrest⟩
      rw [List.flatMap_cons, hfunction.block_lines]

/-- **Printed blocks are read back** one after the other. -/
theorem readFunctions_flatMap
    (h : ∀ function ∈ functions, function.Printable) (consumed : Nat) :
    readFunctions ⟨functions.flatMap PrintedFunction.lines, consumed⟩
      = (functions.map PrintedFunction.listing, none) :=
  (readFunctions_iff_laidOut _ consumed _).mpr (laidOut_flatMap h)

/-- The lines of a printed listing. -/
theorem ofText_printListing
    (h : ∀ function ∈ functions, function.Printable) :
    LineReader.ofText (printListing functions)
      = ⟨functions.flatMap PrintedFunction.lines, 0⟩ := by
  have hlines : ∀ line ∈ functions.flatMap PrintedFunction.lines, ∀ c ∈ line,
      isLineBreak c = false := by
    intro line hline
    obtain ⟨function, hfunction, hline⟩ := List.mem_flatMap.mp hline
    exact isLineBreak_of_mem_lines (h function hfunction) line hline
  rw [ofText_eq, printListing, String.toList_ofList, splitLines_joinLines hlines]

/-- **Printed listings are read back.** Whatever their texts hold beside line breaks, the functions
of a printed listing are read in order, each with its own code and tables, and nothing is read
behind them. A stream hands them out one by one and stops, however often it is asked for more. -/
theorem readFunctions_printListing
    (h : ∀ function ∈ functions, function.Printable) :
    let reader := LineReader.ofText (printListing functions)
    readFunctions reader = (functions.map PrintedFunction.listing, none) ∧
    ∀ extra, (FunctionStream.ofReader reader).nextEach (functions.length + extra)
      = functions.map (fun function => .ok (some function.listing))
        ++ List.replicate extra (.ok none) := by
  have hread := readFunctions_flatMap h 0
  intro reader
  have hreader : reader = _ := ofText_printListing h
  refine ⟨hreader ▸ hread, fun extra => ?_⟩
  have hstream : readFunctions (FunctionStream.ofReader reader).reader
      = (functions.map PrintedFunction.listing, none) := hreader ▸ hread
  have hnext := nextEach_of_readFunctions rfl hstream extra
  rwa [List.length_map, List.map_map] at hnext

/-- Two functions whose texts imitate other lines of a listing. -/
def imitations : List PrintedFunction := [
  { kind := .main, source := "x:1,2> (1 instruction", lineDefined := 0, lastLine := 0
    instructions := [
      ⟨1, 1, "GETTABUP", some 0, some 0, some (-1), some "f \\ \"; g", some "_ENV"⟩,
      ⟨2, 0, "RETURN", some 0, some 1, none, none, none⟩]
    constants := ["main <y:3,4> (1 instruction at 0x0)", "", "0 params,"]
    locals := ["upvalues (7) for 0x0:", "\t0\tt\t1\t2"]
    upvalues := ["\t1\t[1]\tRETURN \t0 1", "\t0\t_ENV\t1\t0"]
    layout := ⟨none, 0x55d0, 1, true, 2, 1⟩ },
  { kind := .function, source := "", lineDefined := 5, lastLine := 6
    instructions := [], constants := [], locals := [], upvalues := []
    layout := ⟨some 4, 0, 0, false, 1, 0⟩ }]

/-- Nothing in the imitations misleads the reader. -/
theorem readFunctions_imitations :
    (∀ function ∈ imitations, function.Printable) ∧
    (let reader := LineReader.ofText (printListing imitations)
    readFunctions reader = (imitations.map PrintedFunction.listing, none) ∧
    ∀ extra, (FunctionStream.ofReader reader).nextEach (imitations.length + extra)
      = imitations.map (fun function => .ok (some function.listing))
        ++ List.replicate extra (.ok none)) := by
  have hread : ∀ function ∈ imitations, ∀ ins ∈ function.instructions,
      readInstruction? ins.print = some ins := by decide +kernel
  have htexts : ∀ function ∈ imitations, ∀ text ∈ function.texts,
      text.toList.all (isLineBreak · = false) = true := by decide +kernel
  have hprintable : ∀ function ∈ imitations, function.Printable := by
    refine fun function hfunction => ⟨fun ins hins => ⟨ins.print, ?_⟩,
      fun text htext => forall_mem_of_all (htexts function hfunction text htext)⟩
    rw [readCodeLine, isBlankText_print, hread function hfunction ins hins]
    rfl
  exact ⟨hprintable, readFunctions_printListing hprintable⟩

end LuaGlobals
