import LuaGlobals.Proofs.Instruction.Comment
import LuaGlobals.Proofs.Instruction.Field

/-! # Printed instructions are read back

* `decodeComment_printComment` says that the comment of a printed instruction spells what the
  comment spelled from which the instruction was read.
* `Instruction.Spelled` is what a line of code can hold, and `spelled_of_readInstruction?` says that
  it holds nothing else.
* **`readInstruction?_append`** reads the fields of a line off one after the other, whatever blanks
  stand between them.
* **`readInstruction?_print`** and **`readCodeLine_print`**: the printed line of an instruction that
  is spelled gives the instruction back.
* `isLineBreak_of_mem_print`: such a line is one line. -/

namespace LuaGlobals

open Text

variable {text rest : List Char} {ins : Instruction}

/-! ## Comments -/

/-- The comment of a printed instruction spells what a comment on one line spelled. -/
theorem decodeComment_printComment {shape : CommentShape} {constant upvalue : Option String}
    {source : List Char} (hline : '\n' ∉ source)
    (h : decodeComment shape (commentTokens source) = (constant, upvalue)) :
    decodeComment shape (commentTokens (printComment shape constant upvalue)) = (constant, upvalue)
      ∧ Solid (printComment shape constant upvalue) := by
  have hnone : decodeComment shape (commentTokens []) = (none, none) ∧ Solid [] := by
    rw [commentTokens_nil]
    exact ⟨by cases shape <;> rfl, .of_forall (List.forall_mem_nil _)⟩
  cases htokens : commentTokens source with
  | nil =>
      rw [htokens] at h
      obtain ⟨rfl, rfl⟩ : none = constant ∧ none = upvalue := by
        cases shape <;> exact Prod.mk.inj h
      cases shape <;> exact hnone
  | cons first later =>
      obtain ⟨hfirst, hsolid⟩ := commentTokens_first htokens
      rw [htokens] at h
      cases shape with
      | symbol =>
          obtain ⟨rfl, rfl⟩ := Prod.mk.inj h
          simp only [printComment, String.toList_ofList, hfirst]
          exact ⟨rfl, hsolid⟩
      | tableThenKey =>
          cases later with
          | nil =>
              obtain ⟨rfl, rfl⟩ := Prod.mk.inj h
              simp only [printComment, String.toList_ofList, hfirst]
              exact ⟨rfl, hsolid⟩
          | cons key later =>
              obtain ⟨rfl, rfl⟩ := Prod.mk.inj h
              cases hkey : unquote? key with
              | none =>
                  simp only [printComment, Option.map_none, String.toList_ofList, hfirst]
                  exact ⟨rfl, hsolid⟩
              | some payload =>
                  -- Only a closed table may stand in front of a key again.
                  have hclosed := isClosed_of_unquote? hline htokens hkey
                  simp only [printComment, Option.map_some, String.toList_ofList,
                    hclosed.commentTokens_append_quoteToken]
                  refine ⟨?_, hclosed.solid_append_quoteToken payload⟩
                  rw [decodeComment, unquote?_quoteToken, Option.map_some]
      | key =>
          obtain ⟨rfl, rfl⟩ := Prod.mk.inj h
          cases hkey : unquote? first with
          | none => exact hnone
          | some payload =>
              simp only [printComment, Option.map_some, String.toList_ofList,
                commentTokens_quoteToken]
              refine ⟨?_, (isClosed_quoteToken payload).solid⟩
              rw [decodeComment, unquote?_quoteToken, Option.map_some]
      | remark =>
          obtain ⟨rfl, rfl⟩ := Prod.mk.inj h
          exact hnone

/-- What the tokens of a comment spell holds characters of the tokens only. -/
theorem mem_of_decodeComment {shape : CommentShape} {tokens : List (List Char)}
    {constant upvalue : Option String} (h : decodeComment shape tokens = (constant, upvalue)) :
    ∀ text ∈ constant.toList ++ upvalue.toList, ∀ c ∈ text.toList, ∃ token ∈ tokens, c ∈ token := by
  have htoken {token : List Char} (hmem : token ∈ tokens) :
      ∀ c ∈ (String.ofList token).toList, ∃ token ∈ tokens, c ∈ token := by
    intro c hc
    rw [String.toList_ofList] at hc
    exact ⟨token, hmem, hc⟩
  have hpayload {token : List Char} (hmem : token ∈ tokens) :
      ∀ text ∈ ((unquote? token).map String.ofList).toList, ∀ c ∈ text.toList,
        ∃ token ∈ tokens, c ∈ token := by
    intro text htext c hc
    obtain ⟨payload, hpayload, rfl⟩ := Option.map_eq_some_iff.mp (Option.mem_toList.mp htext)
    rw [String.toList_ofList] at hc
    exact ⟨token, hmem, mem_of_unquote? hpayload hc⟩
  unfold decodeComment at h
  rw [List.forall_mem_append]
  split at h <;> cases h
  case h_1 token later =>
    exact ⟨List.forall_mem_singleton.mpr (htoken List.mem_cons_self), List.forall_mem_nil _⟩
  case h_2 table =>
    exact ⟨List.forall_mem_nil _, List.forall_mem_singleton.mpr (htoken List.mem_cons_self)⟩
  case h_3 table key later =>
    exact ⟨hpayload (List.mem_cons_of_mem _ List.mem_cons_self),
      List.forall_mem_singleton.mpr (htoken List.mem_cons_self)⟩
  case h_4 token later => exact ⟨hpayload List.mem_cons_self, List.forall_mem_nil _⟩
  case h_5 => exact ⟨List.forall_mem_nil _, List.forall_mem_nil _⟩

/-- The characters of a printed comment. -/
theorem forall_mem_comment {motive : Char → Prop} (hquote : motive '"') (hslash : motive '\\')
    (hspace : motive ' ') (h : ∀ text ∈ ins.texts, ∀ c ∈ text.toList, motive c) :
    ∀ c ∈ ins.comment, motive c := by
  rw [Instruction.texts] at h
  obtain ⟨hconstant, hupvalue⟩ := List.forall_mem_append.mp h
  simp only [Option.mem_toList] at hconstant hupvalue
  rw [Instruction.comment]
  generalize CommentShape.ofMnemonic ins.opcode = shape
  generalize ins.constant = constant at hconstant ⊢
  generalize ins.upvalue = upvalue at hupvalue ⊢
  unfold printComment
  split
  case h_1 symbol => exact hconstant symbol rfl
  case h_2 table => exact hupvalue table rfl
  case h_3 key table =>
    exact List.forall_mem_append.mpr ⟨hupvalue table rfl, List.forall_mem_cons.mpr
      ⟨hspace, forall_mem_quoteToken hquote hslash (hconstant key rfl)⟩⟩
  case h_4 key => exact forall_mem_quoteToken hquote hslash (hconstant key rfl)
  case h_5 => exact List.forall_mem_nil _

/-! ## Whole lines -/

/-- **An instruction that a line can hold**: its mnemonic, the number of its operands and what a
comment on one line spells. -/
structure Instruction.Spelled (ins : Instruction) : Prop where
  /-- The mnemonic has the shape of one. -/
  mnemonic : IsMnemonic ins.opcode
  /-- The operands are the first ones of a row. -/
  operands : ∃ values : List Int, ins.a = values[0]? ∧ ins.b = values[1]? ∧ ins.c = values[2]?
  /-- Some comment on one line spells the constant and the captured table. -/
  comment : ∃ comment, '\n' ∉ comment ∧
    decodeComment (.ofMnemonic ins.opcode) (commentTokens comment) = (ins.constant, ins.upvalue)

/-- The texts of an instruction that a line can hold stand on one line. -/
theorem Instruction.Spelled.not_mem_text (h : ins.Spelled) :
    ∀ text ∈ ins.texts, '\n' ∉ text.toList := by
  obtain ⟨comment, hline, hcomment⟩ := h.comment
  intro text htext hbreak
  obtain ⟨token, htoken, hmem⟩ := mem_of_decodeComment hcomment text htext '\n' hbreak
  exact hline (mem_of_mem_commentTokens token htoken '\n' hmem)

/-- What is read off a line can be spelled. -/
theorem spelled_of_readInstruction? (h : readInstruction? text = some ins) : ins.Spelled := by
  simp only [readInstruction?, Option.bind_eq_bind, Option.bind_eq_some_iff, Prod.exists] at h
  obtain ⟨index, afterIndex, -, afterBlanks, -, lineNumber, afterLine, -, opcode, afterOpcode,
    hopcode, comment, hcomment, ⟨⟩⟩ := h
  exact ⟨isMnemonic_of_readMnemonic? hopcode, ⟨_, rfl, rfl, rfl⟩,
    comment, not_mem_of_readComment? hcomment, rfl⟩

/-- The operands of an instruction are the first three of those on its line. -/
theorem Instruction.Spelled.operands_eq (h : ins.Spelled) :
    ins.operands.length ≤ 4 ∧ ins.a = ins.operands[0]? ∧ ins.b = ins.operands[1]?
      ∧ ins.c = ins.operands[2]? := by
  obtain ⟨values, ha, hb, hc⟩ := h.operands
  rw [Instruction.operands, ha, hb, hc]
  rcases values with _ | ⟨a, _ | ⟨b, _ | ⟨c, values⟩⟩⟩ <;> simp

/-- A printed instruction, from its index on, with its parts in the order in which they are read. -/
theorem print_eq (ins : Instruction) :
    ins.print = '\t' :: (printNumber ins.index ++ '\t' :: (printLineField ins.line ++
      '\t' :: (ins.opcode.toList ++ (mnemonicGap ins.opcode ++ (printOperands ins.operands ++
        printCommentField ins.comment))))) := by
  simp [Instruction.print, printMnemonic, mnemonicGap]

example : String.ofList (Instruction.print
    ⟨1, 0, "GETTABUP", some 0, some 2, some (-1), some "require", some "_ENV"⟩)
      = "\t1\t[-]\tGETTABUP \t0 2 -1\t; _ENV \"require\"" := by decide +kernel

/-- What follows a printed mnemonic gives its operands and its comment. -/
theorem readTail_print (opcode : String) {values : List Int} {comment : List Char}
    (hcount : values.length ≤ 4) (hsolid : Solid comment) (hline : '\n' ∉ comment) :
    let parts := readOperands 4 (mnemonicGap opcode ++ (printOperands values ++
      printCommentField comment))
    parts.1 = values ∧ readComment? parts.2 = some comment := by
  have hgap : ∀ c ∈ mnemonicGap opcode, isBlank c = true :=
    forall_mem_mnemonicGap (by decide) (by decide) opcode
  have hoperands := readOperands_printOperands ⟨⟨mnemonicGap opcode, hgap⟩, mnemonicGap_ne_nil opcode⟩
    hcount (endsOperands_printCommentField comment)
  dsimp only at hoperands
  rw [hoperands]
  refine ⟨rfl, ?_⟩
  dsimp only
  split
  case isTrue => exact readComment?_printCommentField hgap hsolid hline
  case isFalse => exact readComment?_printCommentField (List.forall_mem_nil _) hsolid hline

/-- **An instruction is read field by field**, whatever blanks stand between the fields. -/
theorem readInstruction?_append (leading : Blanks) (index : Nat) (gap : Gap) (column : LineColumn)
    {opcode : String} {tail comment : List Char} (hmnemonic : IsMnemonic opcode)
    (hhead : ∀ d ∈ tail.head?, isMnemonicChar d = false)
    (hcomment : readComment? (readOperands 4 tail).2 = some comment) :
    readInstruction? (leading.chars ++ (printNumber index ++ (gap.chars ++ (column.chars ++
        (opcode.toList ++ tail))))) =
      let operands := (readOperands 4 tail).1
      let spelled := decodeComment (.ofMnemonic opcode) (commentTokens comment)
      some ⟨index, column.line, opcode, operands[0]?, operands[1]?, operands[2]?, spelled.1,
        spelled.2⟩ := by
  -- The fields are taken from the last to the first, so that each rest is known where it is needed.
  have hopcode := readMnemonic?_append hmnemonic hhead
  have hstart : ∀ d ∈ (opcode.toList ++ tail).head?, isBlank d = false ∧ d ≠ '[' := by
    refine forall_head?_append hmnemonic.ne_nil (fun d hd => ?_) tail
    have hchar := hmnemonic.isMnemonicChar d hd
    refine ⟨isBlank_of_isMnemonicChar hchar, ?_⟩
    rintro rfl
    cases hchar
  have hline := column.readLineField?_append hstart
  have hcolumn : ∀ d ∈ (column.chars ++ (opcode.toList ++ tail)).head?, isBlank d = false :=
    column.forall_head? (by decide) fun d hd => (hstart d hd).1
  generalize opcode.toList ++ tail = fromOpcode at hopcode hline hcolumn ⊢
  have hblanks := gap.readBlanks?_append hcolumn
  generalize column.chars ++ fromOpcode = fromLine at hline hblanks ⊢
  have hdigit : ∀ d, isBlank d = true → isDecimal d = false := fun _ => isDecimal_of_isBlank
  have hindex : readNumber? (printNumber index ++ (gap.chars ++ fromLine)) = some (index, _) :=
    readNumber?_printNumber index (gap.forall_head? hdigit fromLine)
  have hdrop : dropBlanks (leading.chars ++ (printNumber index ++ (gap.chars ++ fromLine))) = _ :=
    dropBlanks_append leading.blank (forall_head?_printNumber (by decide) index _)
  simp only [readInstruction?, hdrop, hindex, hblanks, hline, hopcode, hcomment,
    Option.bind_eq_bind, Option.bind_some]
  rfl

/-- The comment of a printed instruction spells what the instruction holds. -/
theorem Instruction.Spelled.decodeComment_eq (h : ins.Spelled) :
    decodeComment (.ofMnemonic ins.opcode) (commentTokens ins.comment)
      = (ins.constant, ins.upvalue) ∧ Solid ins.comment := by
  obtain ⟨source, hline, hsource⟩ := h.comment
  exact decodeComment_printComment hline hsource

/-- **A printed instruction is read back.** -/
theorem readInstruction?_print (h : ins.Spelled) : readInstruction? ins.print = some ins := by
  obtain ⟨hcount, ha, hb, hc⟩ := h.operands_eq
  obtain ⟨hdecode, hsolid⟩ := h.decodeComment_eq
  have hline : '\n' ∉ ins.comment := by
    intro hbreak
    exact forall_mem_comment (motive := (· ≠ '\n')) (by decide) (by decide) (by decide)
      (fun text htext c hc => ne_of_mem_of_not_mem hc (h.not_mem_text text htext)) _ hbreak rfl
  obtain ⟨hoperands, hcomment⟩ := readTail_print ins.opcode hcount hsolid hline
  have hhead : ∀ d ∈ (mnemonicGap ins.opcode ++ (printOperands ins.operands ++
      printCommentField ins.comment)).head?, isMnemonicChar d = false := by
    have hgap := forall_mem_mnemonicGap (motive := (isMnemonicChar · = false)) (by decide)
      (by decide) ins.opcode
    exact forall_head?_append (mnemonicGap_ne_nil ins.opcode) hgap _
  have hread := readInstruction?_append Gap.tab.toBlanks ins.index .tab (.ofLine ins.line)
    h.mnemonic hhead hcomment
  rw [LineColumn.chars_ofLine, LineColumn.line_ofLine, List.append_assoc] at hread
  rw [print_eq]
  refine hread.trans ?_
  simp only [hoperands, hdecode, ← ha, ← hb, ← hc]

/-- A printed instruction is not blank. -/
theorem isBlankText_print (ins : Instruction) : isBlankText ins.print = false := by
  obtain ⟨digit, hmem⟩ := List.exists_mem_of_ne_nil _ (printNumber_ne_nil ins.index)
  have hblank := forall_mem_printNumber (motive := (isBlank · = false)) (by decide) _ digit hmem
  rw [print_eq]
  refine List.all_eq_false.mpr ⟨digit, List.mem_cons_of_mem _ (List.mem_append_left _ hmem), ?_⟩
  rw [hblank]
  exact Bool.false_ne_true

/-- What holds an instruction is no blank line. -/
theorem readCodeLine_of_readInstruction? (h : readInstruction? text = some ins) :
    readCodeLine text = .ok (.instruction ins) := by
  have hblank : isBlankText text = false := by
    rw [Bool.eq_false_iff]
    intro hall
    have hdrop : dropBlanks text = [] := dropBlanks_eq_nil (List.all_eq_true.mp hall)
    rw [readInstruction?, hdrop] at h
    cases h
  rw [readCodeLine, hblank, h]
  rfl

/-- **A printed instruction is one line of code.** -/
theorem readCodeLine_print (h : ins.Spelled) :
    readCodeLine ins.print = .ok (.instruction ins) :=
  readCodeLine_of_readInstruction? (readInstruction?_print h)

/-- A printed instruction holds no line break when its texts hold none. -/
theorem isLineBreak_of_mem_print (h : ins.Spelled)
    (htexts : ∀ text ∈ ins.texts, ∀ c ∈ text.toList, isLineBreak c = false) :
    ∀ c ∈ ins.print, isLineBreak c = false := by
  have htab : isLineBreak '\t' = false := by decide
  have hopcode : ∀ c ∈ ins.opcode.toList, isLineBreak c = false :=
    fun c hc => isLineBreak_of_isMnemonicChar (h.mnemonic.isMnemonicChar c hc)
  rw [print_eq]
  simp only [List.forall_mem_cons, List.forall_mem_append]
  exact ⟨htab, forall_mem_printNumber (by decide) _, htab,
    forall_mem_printLineField (by decide) (by decide) (by decide) (by decide) _, htab, hopcode,
    forall_mem_mnemonicGap (by decide) htab _,
    forall_mem_printOperands (by decide) (by decide) (by decide) _,
    forall_mem_printCommentField htab (by decide) (by decide)
      (forall_mem_comment (by decide) (by decide) (by decide) htexts)⟩

/-- What is read off a line of code can be spelled. -/
theorem spelled_of_readCodeLine (h : readCodeLine text = .ok (.instruction ins)) :
    ins.Spelled := by
  unfold readCodeLine at h
  split at h
  case isTrue => cases h
  case isFalse =>
    split at h
    case h_1 read hread =>
      cases h
      exact spelled_of_readInstruction? hread
    case h_2 => cases h

end LuaGlobals
