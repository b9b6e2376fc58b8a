import LuaGlobals.Proofs.Instruction.RoundTrip

/-! # Lines of code in any layout

The fields of a line of code have a fixed order, and any blanks between them. Here the lines are
built from their fields, and each one is read back as the instruction that its fields make up.

* `CommentBody` is what a comment holds that fits the mnemonic of its line.
* `LineLayout` is a line with all its blanks, and `LineLayout.instruction` what it shows.
* **`LineLayout.readCodeLine_eq`**: such a line is read as what it shows.
* **`instruction_lines_roundtrip`**: reading undoes every layout, and printing what was read keeps
  it. -/

namespace LuaGlobals

open Text

variable {shape : CommentShape}

/-! ## Comments -/

/-- What may follow the tokens that count in a comment: nothing, or anything behind a blank. -/
structure FurtherTokens where
  /-- The characters. -/
  chars : List Char
  /-- The first one is blank. -/
  apart : ∀ c ∈ chars.head?, isBlank c = true

/-- Without the blanks at their end, further tokens still start with a blank. -/
theorem FurtherTokens.head?_dropBlanksEnd (further : FurtherTokens) :
    ∀ c ∈ (dropBlanksEnd further.chars).head?, isBlank c = true :=
  fun c hc => further.apart c (Text.head?_dropBlanksEnd hc)

/-- Blanks in front of a comment do not matter. -/
theorem Blanks.commentTokens_append (blanks : Blanks) (comment : List Char) :
    commentTokens (blanks.chars ++ comment) = commentTokens comment := by
  rw [commentTokens_eq, commentTokens_eq comment, dropBlanks,
    List.dropWhile_append_of_pos blanks.blank]
  rfl

/-- **What a comment holds that fits the mnemonic of its line**: a symbol, a captured table with a
key, or a key, with further tokens behind them, or anything where no comment matters. -/
inductive CommentBody : CommentShape → Type where
  /-- A symbol. -/
  | symbol (name : List Char) (closed : IsClosed name) (further : FurtherTokens) :
    CommentBody .symbol
  /-- The name of a captured table and a quoted key. -/
  | tableThenKey (table : List Char) (closed : IsClosed table) (gap : Gap) (payload : List Char)
    (further : FurtherTokens) : CommentBody .tableThenKey
  /-- A quoted key. -/
  | key (payload : List Char) (further : FurtherTokens) : CommentBody .key
  /-- Anything. -/
  | remark (chars : List Char) : CommentBody .remark

namespace CommentBody

/-- The text of a comment. -/
def chars : CommentBody shape → List Char
  | .symbol name _ further => name ++ further.chars
  | .tableThenKey table _ gap payload further =>
    (table ++ gap.chars ++ quoteToken payload) ++ further.chars
  | .key payload further => quoteToken payload ++ further.chars
  | .remark chars => chars

/-- The constant that a comment spells. -/
def constant? : CommentBody shape → Option String
  | .symbol name _ _ => some (String.ofList name)
  | .tableThenKey _ _ _ payload _ | .key payload _ => some (String.ofList payload)
  | .remark _ => none

/-- The captured table that a comment names. -/
def upvalue? : CommentBody shape → Option String
  | .tableThenKey table _ _ _ _ => some (String.ofList table)
  | .symbol _ _ _ | .key _ _ | .remark _ => none

/-- **The tokens of a fitting comment spell what it shows**, also when the blanks at its end are cut
off. -/
theorem decodeComment_trim (body : CommentBody shape) :
    decodeComment shape (commentTokens (trim body.chars)) = (body.constant?, body.upvalue?) := by
  -- What counts ends solid, so only the further tokens lose their last blanks.
  cases body with
  | symbol name closed further =>
      rw [chars, closed.solid.trim_append closed.ne_nil,
        closed.commentTokens_append further.head?_dropBlanksEnd]
      rfl
  | tableThenKey table closed gap payload further =>
      have hkey := isClosed_quoteToken payload
      have hsolid := closed.solid.append hkey.solid closed.ne_nil hkey.ne_nil gap.chars
      have hne : table ++ gap.chars ++ quoteToken payload ≠ [] :=
        List.append_ne_nil_of_right_ne_nil _ hkey.ne_nil
      have hgap : ∀ d ∈ (gap.chars ++ (quoteToken payload ++ dropBlanksEnd further.chars)).head?,
          isBlank d = true := gap.forall_head? (fun _ => id) _
      rw [chars, hsolid.trim_append hne, List.append_assoc, List.append_assoc,
        closed.commentTokens_append hgap, gap.commentTokens_append,
        hkey.commentTokens_append further.head?_dropBlanksEnd, decodeComment, unquote?_quoteToken]
      rfl
  | key payload further =>
      have hkey := isClosed_quoteToken payload
      rw [chars, hkey.solid.trim_append hkey.ne_nil,
        hkey.commentTokens_append further.head?_dropBlanksEnd, decodeComment, unquote?_quoteToken]
      rfl
  | remark chars => rfl

end CommentBody

/-- A comment with its semicolon and the blanks around that. -/
structure CommentField (shape : CommentShape) where
  /-- The blanks in front of the semicolon. -/
  before : Blanks
  /-- The blanks behind it. -/
  behind : Blanks
  /-- The comment. -/
  body : CommentBody shape
  /-- The comment stands on one line. -/
  oneLine : '\n' ∉ body.chars

/-- The text of a comment with its semicolon, if there is one. -/
def commentChars : Option (CommentField shape) → List Char
  | none => []
  | some field => field.before.chars ++ ';' :: (field.behind.chars ++ field.body.chars)

section

variable (field? : Option (CommentField shape)) (trailing : Blanks)

/-- What ends a line starts with a blank or a semicolon. -/
theorem forall_head?_commentChars {motive : Char → Prop}
    (hblank : ∀ c, isBlank c = true → motive c) (hsemicolon : motive ';') :
    ∀ c ∈ (commentChars field? ++ trailing.chars).head?, motive c := by
  cases field? with
  | none => exact fun c hc => hblank c (trailing.blank c (List.mem_of_mem_head? hc))
  | some field =>
      rw [commentChars, List.append_assoc]
      exact field.before.forall_head?_append hblank (forall_head?_cons hsemicolon)

/-- What ends a line holds no operands. -/
theorem endsOperands_commentChars : EndsOperands (commentChars field? ++ trailing.chars) where
  apart := by
    refine forall_head?_commentChars field? trailing
      (fun c hc => ⟨isDecimal_of_isBlank hc, ?_⟩) (by decide)
    rintro rfl
    cases hc
  stop := by
    cases field? with
    | none =>
        rw [commentChars, List.nil_append, dropBlanks_eq_nil trailing.blank]
        rintro _ ⟨⟩
    | some field =>
        rw [commentChars, List.append_assoc, List.cons_append,
          dropBlanks_append field.before.blank (forall_head?_cons (by decide))]
        exact forall_head?_cons (by decide)

/-- **The comment of a line is read back**: its tokens spell what it shows, and without one they
spell nothing. -/
theorem readComment?_commentChars :
    ∃ comment, readComment? (commentChars field? ++ trailing.chars) = some comment
      ∧ decodeComment shape (commentTokens comment)
        = (field?.bind (·.body.constant?), field?.bind (·.body.upvalue?)) := by
  cases field? with
  | none =>
      -- Without tokens no mnemonic has a constant.
      refine ⟨[], trailing.readComment?_eq, ?_⟩
      rw [commentTokens_nil]
      cases shape <;> rfl
  | some field =>
      -- The blanks at the end of the line are trimmed with those of the comment.
      have htrim := trim_append field.behind.blank trailing.blank field.body.chars
      have hline : '\n' ∉ trim field.body.chars := fun hbreak =>
        field.oneLine (mem_of_mem_trim hbreak)
      refine ⟨trim field.body.chars, ?_, field.body.decodeComment_trim⟩
      rw [commentChars, List.append_assoc, List.cons_append, List.append_assoc,
        readComment?_append field.before (by rwa [htrim]), htrim]

end

/-! ## Lines -/

/-- **A line of code with all its blanks.** -/
structure LineLayout where
  /-- The blanks in front. -/
  leading : Blanks
  /-- The index of the instruction. -/
  index : Nat
  /-- The blanks behind the index. -/
  gap : Gap
  /-- The column of line numbers. -/
  column : LineColumn
  /-- The mnemonic. -/
  opcode : String
  /-- The mnemonic has the shape of one. -/
  mnemonic : IsMnemonic opcode
  /-- The operands. -/
  operands : List OperandField
  /-- There are no more than four. -/
  atMostFour : operands.length ≤ 4
  /-- The comment, if there is one. -/
  comment? : Option (CommentField (.ofMnemonic opcode))
  /-- The blanks at the end. -/
  trailing : Blanks

namespace LineLayout

/-- What follows the mnemonic. -/
def tail (layout : LineLayout) : List Char :=
  layout.operands.flatMap (·.chars) ++ (commentChars layout.comment? ++ layout.trailing.chars)

/-- The text of a line. -/
def chars (layout : LineLayout) : List Char :=
  layout.leading.chars ++ (printNumber layout.index ++ (layout.gap.chars ++
    (layout.column.chars ++ (layout.opcode.toList ++ layout.tail))))

/-- The instruction that a line shows: of the operands the first three, and of the comment what it
spells. -/
def instruction (layout : LineLayout) : Instruction where
  index := layout.index
  line := layout.column.line
  opcode := layout.opcode
  a := layout.operands[0]?.map (·.value)
  b := layout.operands[1]?.map (·.value)
  c := layout.operands[2]?.map (·.value)
  constant := layout.comment?.bind (·.body.constant?)
  upvalue := layout.comment?.bind (·.body.upvalue?)

/-- The mnemonic is no longer. -/
theorem isMnemonicChar_tail (layout : LineLayout) :
    ∀ d ∈ layout.tail.head?, isMnemonicChar d = false := by
  have hblank : ∀ d, isBlank d = true → isMnemonicChar d = false := by
    intro d hd
    rw [Bool.eq_false_iff]
    intro hchar
    rw [isBlank_of_isMnemonicChar hchar] at hd
    cases hd
  rw [tail]
  cases layout.operands with
  | nil => exact forall_head?_commentChars _ _ hblank (by decide)
  | cons operand operands =>
      rw [List.flatMap_cons, OperandField.chars, List.append_assoc, List.append_assoc]
      exact operand.gap.forall_head? hblank _

/-- **A line in any layout is read as what it shows.** -/
theorem readCodeLine_eq (layout : LineLayout) :
    readCodeLine layout.chars = .ok (.instruction layout.instruction) := by
  have hoperands : readOperands 4 layout.tail = _ := readOperands_fields layout.atMostFour
    (endsOperands_commentChars layout.comment? layout.trailing)
  obtain ⟨comment, hcomment, hdecode⟩ :=
    readComment?_commentChars layout.comment? layout.trailing
  have hread := readInstruction?_append layout.leading layout.index layout.gap layout.column
    layout.mnemonic layout.isMnemonicChar_tail (by rw [hoperands]; exact hcomment)
  apply readCodeLine_of_readInstruction?
  rw [chars, hread]
  simp only [hoperands, hdecode, List.getElem?_map]
  rfl

end LineLayout

/-! ## Reading and printing -/

/-- **Reading undoes every layout, and printing what was read keeps it.** A line with its fields in
order and any blanks between them gives the index, the line, the mnemonic, the first three operands
and what the comment spells; and of whatever is read as an instruction the printed line gives it
again. -/
theorem instruction_lines_roundtrip :
    (∀ layout : LineLayout, readCodeLine layout.chars = .ok (.instruction layout.instruction))
      ∧ ∀ (text : List Char) (ins : Instruction), readCodeLine text = .ok (.instruction ins) →
        readCodeLine ins.print = .ok (.instruction ins) :=
  ⟨LineLayout.readCodeLine_eq, fun _ _ hread => readCodeLine_print (spelled_of_readCodeLine hread)⟩

/-- A read of a global on an unknown line, with the suffix of a constant, a quote in its key and a
further token. -/
def quotedKeyLayout : LineLayout where
  leading := ⟨[], List.forall_mem_nil _⟩
  index := 3
  gap := .space
  column := .unknown .tab
  opcode := "GETTABUP"
  mnemonic := ⟨'G', "ETTABUP".toList, by decide, by decide, forall_mem_of_all (by decide)⟩
  operands := [.plain 0, .plain 2, ⟨.tab, -1, true⟩]
  atMostFour := by decide
  comment? := some {
    before := ⟨[], List.forall_mem_nil _⟩
    behind := Gap.space.toBlanks
    body := .tableThenKey "_ENV".toList (.bare (by decide) (forall_mem_of_all (by decide))) .space
      "a;\"b".toList ⟨[' ', '"'], forall_head?_cons (by decide)⟩
    oneLine := by decide }
  trailing := Gap.tab.toBlanks

/-- The line is read as what it shows, and so is a line whose comment opens a quote that it never
closes, once it is printed. -/
theorem quotedKeyLayout_roundtrip :
    String.ofList quotedKeyLayout.chars
        = "3 [-]\tGETTABUP 0 2\t-1k; _ENV \"a;\\\"b\" \"\t"
      ∧ readCodeLine quotedKeyLayout.chars = .ok (.instruction
          ⟨3, 0, "GETTABUP", some 0, some 2, some (-1), some "a;\"b", some "_ENV"⟩)
      ∧ readCodeLine "7 GETUPVAL 1 0; \"a b".toList
        = .ok (.instruction ⟨7, 0, "GETUPVAL", some 1, some 0, none, some "\"a", none⟩)
      ∧ readCodeLine (Instruction.print ⟨7, 0, "GETUPVAL", some 1, some 0, none, some "\"a", none⟩)
        = .ok (.instruction ⟨7, 0, "GETUPVAL", some 1, some 0, none, some "\"a", none⟩) := by
  have hshown : quotedKeyLayout.instruction
      = ⟨3, 0, "GETTABUP", some 0, some 2, some (-1), some "a;\"b", some "_ENV"⟩ := by decide +kernel
  have hread : readCodeLine "7 GETUPVAL 1 0; \"a b".toList
      = .ok (.instruction ⟨7, 0, "GETUPVAL", some 1, some 0, none, some "\"a", none⟩) :=
    readCodeLine_of_readInstruction? (by decide +kernel)
  refine ⟨by decide +kernel, ?_, hread, instruction_lines_roundtrip.2 _ _ hread⟩
  rw [instruction_lines_roundtrip.1, hshown]

end LuaGlobals
