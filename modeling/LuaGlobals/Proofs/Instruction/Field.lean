import LuaGlobals.Instruction.Printer
import LuaGlobals.Instruction.Reader
import LuaGlobals.Proofs.Text.Cut
import LuaGlobals.Proofs.Text.Digit

/-! # Printed fields are read back

Each field of an instruction line is read off the front of what was printed, in front of any text
that does not go on with the field.

* `Blanks` and `Gap` are the rows of blanks around the fields.
* `LineColumn` is the column of line numbers, which may be absent, and
  **`LineColumn.readLineField?_append`** reads it back.
* `IsMnemonic` is the shape of a mnemonic, and `readMnemonic?_append` reads one back.
* `OperandField` is an operand with the blanks before it and the suffix after it, `EndsOperands` is
  what follows a row of operands, and **`readOperands_fields`** reads the row back.
* **`readComment?_append`** cuts a comment to what stands between its blanks. -/

namespace LuaGlobals

open Text

variable {c : Char} {text rest gap : List Char} {opcode : String}

/-! ## Numbers and blanks -/

/-- A printed number has a digit. -/
theorem printNumber_ne_nil (number : Nat) : printNumber number ≠ [] :=
  Nat.toDigits_ne_nil

/-- What holds of each decimal digit holds of the characters of a printed number. -/
theorem forall_mem_printNumber {motive : Char → Prop}
    (h : ∀ digit < 10, motive (Nat.digitChar digit)) (number : Nat) :
    ∀ c ∈ printNumber number, motive c := by
  intro c hc
  obtain ⟨digit, hdigit, rfl⟩ := exists_digitChar (by decide) hc
  exact h digit hdigit

/-- What holds of each decimal digit holds of the first character of a printed number. -/
theorem forall_head?_printNumber {motive : Char → Prop}
    (h : ∀ digit < 10, motive (Nat.digitChar digit)) (number : Nat) (rest : List Char) :
    ∀ c ∈ (printNumber number ++ rest).head?, motive c :=
  forall_head?_append (printNumber_ne_nil number) (forall_mem_printNumber h number) rest

/-- A printed number is read back in front of a text that starts with no digit. -/
theorem readNumber?_printNumber (number : Nat) (h : ∀ c ∈ rest.head?, isDecimal c = false) :
    readNumber? (printNumber number ++ rest) = some (number, rest) := by
  have hdigits : ∀ c ∈ printNumber number, isDecimal c = true :=
    fun _ => isDecimal_of_mem_toDigits
  rw [readNumber?, takeWhile_append hdigits h, dropWhile_append hdigits h]
  simp [printNumber, Nat.toDigits_ne_nil, natOfDigits_toDigits]

/-- No number is read where no digit stands. -/
theorem readNumber?_eq_none (h : ∀ c ∈ text.head?, isDecimal c = false) :
    readNumber? text = none := by
  have hdigits : text.takeWhile isDecimal = [] := takeWhile_append (List.forall_mem_nil _) h
  rw [readNumber?, hdigits, if_pos rfl]

/-- Blanks are read up to the first character that is none. -/
theorem readBlanks?_append (hgap : ∀ c ∈ gap, isBlank c = true) (hne : gap ≠ [])
    (hrest : ∀ c ∈ rest.head?, isBlank c = false) : readBlanks? (gap ++ rest) = some rest := by
  obtain ⟨c, gap, rfl⟩ := List.exists_cons_of_ne_nil hne
  obtain ⟨hc, hgap⟩ := List.forall_mem_cons.mp hgap
  rw [List.cons_append, readBlanks?, if_pos hc, dropBlanks_append hgap hrest]

/-- What follows the blanks that are read. -/
theorem eq_dropBlanks_of_readBlanks? (h : readBlanks? text = some rest) :
    rest = dropBlanks text := by
  unfold readBlanks? at h
  split at h
  case h_1 c tail =>
    split at h
    case isTrue hc =>
      rw [dropBlanks, List.dropWhile_cons_of_pos hc]
      exact (Option.some.inj h).symm
    case isFalse => cases h
  case h_2 => cases h

/-- One blank is read. -/
theorem readBlanks?_cons (hc : isBlank c = true) (hrest : ∀ d ∈ rest.head?, isBlank d = false) :
    readBlanks? (c :: rest) = some rest := by
  rw [readBlanks?, if_pos hc, dropBlanks_eq_self hrest]

/-- A row of blanks. -/
structure Blanks where
  /-- The characters. -/
  chars : List Char
  /-- Each of them is blank. -/
  blank : ∀ c ∈ chars, isBlank c = true

/-- What holds of blanks and of the first character behind a row of them holds of the first one. -/
theorem Blanks.forall_head?_append {motive : Char → Prop} (h : ∀ c, isBlank c = true → motive c)
    (blanks : Blanks) (hrest : ∀ c ∈ rest.head?, motive c) :
    ∀ c ∈ (blanks.chars ++ rest).head?, motive c := by
  by_cases hne : blanks.chars = []
  · rwa [hne, List.nil_append]
  · exact Text.forall_head?_append hne (fun c hc => h c (blanks.blank c hc)) rest

/-- A row of at least one blank. -/
structure Gap extends Blanks where
  /-- There is one. -/
  ne_nil : chars ≠ []

/-- A tab between two fields. -/
def Gap.tab : Gap where
  chars := ['\t']
  blank := List.forall_mem_singleton.mpr (by decide)
  ne_nil := List.cons_ne_nil _ _

/-- A space between two fields. -/
def Gap.space : Gap where
  chars := [' ']
  blank := List.forall_mem_singleton.mpr (by decide)
  ne_nil := List.cons_ne_nil _ _

/-- A gap is read up to the next field. -/
theorem Gap.readBlanks?_append (gap : Gap) (hrest : ∀ c ∈ rest.head?, isBlank c = false) :
    readBlanks? (gap.chars ++ rest) = some rest :=
  LuaGlobals.readBlanks?_append gap.blank gap.ne_nil hrest

/-- What holds of blanks holds of the character behind a field and its gap. -/
theorem Gap.forall_head? {motive : Char → Prop} (h : ∀ c, isBlank c = true → motive c) (gap : Gap)
    (rest : List Char) : ∀ c ∈ (gap.chars ++ rest).head?, motive c :=
  forall_head?_append gap.ne_nil (fun c hc => h c (gap.blank c hc)) rest

/-! ## Line numbers -/

/-- **The column of line numbers**: it may be absent, a dash stands for an unknown line, and a gap
follows it. -/
inductive LineColumn where
  /-- No column. -/
  | absent
  /-- A dash between brackets. -/
  | unknown (gap : Gap)
  /-- A number between brackets. -/
  | known (line : Nat) (gap : Gap)

namespace LineColumn

/-- The text of the column with the gap behind it. -/
def chars : LineColumn → List Char
  | .absent => []
  | .unknown gap => '[' :: '-' :: ']' :: gap.chars
  | .known line gap => '[' :: (printNumber line ++ ']' :: gap.chars)

/-- The line that the column gives. -/
def line : LineColumn → Nat
  | .absent | .unknown _ => 0
  | .known line _ => line

/-- **The column is read back** in front of a text that does not start with one. -/
theorem readLineField?_append (column : LineColumn)
    (hrest : ∀ c ∈ rest.head?, isBlank c = false ∧ c ≠ '[') :
    readLineField? (column.chars ++ rest) = some (column.line, rest) := by
  have hblank : ∀ c ∈ rest.head?, isBlank c = false := fun c hc => (hrest c hc).1
  cases column with
  | absent =>
      have hbracket : ∀ more, rest ≠ '[' :: more := by
        rintro more rfl
        exact (hrest '[' rfl).2 rfl
      unfold readLineField?
      split
      case h_1 heq => exact absurd heq (hbracket _)
      case h_2 heq => exact absurd heq (hbracket _)
      case h_3 => rfl
  | unknown gap => exact congrArg (Option.map _) (gap.readBlanks?_append hblank)
  | known line gap =>
      have hnumber : readNumber? (printNumber line ++ ']' :: (gap.chars ++ rest))
          = some (line, ']' :: (gap.chars ++ rest)) :=
        readNumber?_printNumber line (forall_head?_cons (by decide))
      rw [chars, List.cons_append, List.append_assoc, List.cons_append]
      unfold readLineField?
      split
      case h_1 more heq =>
        have hdash := forall_head?_printNumber (motive := (· ≠ '-')) (by decide) line
          (']' :: (gap.chars ++ rest))
        rw [(List.cons.inj heq).2] at hdash
        exact absurd rfl (hdash '-' rfl)
      case h_2 more _ heq =>
        rw [← (List.cons.inj heq).2, hnumber]
        exact congrArg (Option.map _) (gap.readBlanks?_append hblank)
      case h_3 _ hbracket => exact absurd rfl (hbracket _)

/-- The column starts with a bracket, or with what follows it. -/
theorem forall_head? {motive : Char → Prop} (hopen : motive '[') (column : LineColumn)
    (hrest : ∀ c ∈ rest.head?, motive c) : ∀ c ∈ (column.chars ++ rest).head?, motive c := by
  cases column with
  | absent => exact hrest
  | unknown gap => exact forall_head?_cons hopen
  | known line gap => exact forall_head?_cons hopen

/-- The column of a printed line number. -/
def ofLine (line : Nat) : LineColumn :=
  if line = 0 then .unknown .tab else .known line .tab

/-- A printed line number has a column of its own. -/
theorem chars_ofLine (line : Nat) : (ofLine line).chars = printLineField line ++ ['\t'] := by
  unfold ofLine printLineField
  split
  · rfl
  · simp [chars, Gap.tab]

/-- The column of a printed line number gives it back. -/
theorem line_ofLine (number : Nat) : (ofLine number).line = number := by
  unfold ofLine
  split
  case isTrue hzero => exact hzero.symm
  case isFalse => rfl

end LineColumn

/-- The characters of a printed line number. -/
theorem forall_mem_printLineField {motive : Char → Prop}
    (hdigit : ∀ digit < 10, motive (Nat.digitChar digit)) (hopen : motive '[') (hdash : motive '-')
    (hclose : motive ']') (line : Nat) : ∀ c ∈ printLineField line, motive c := by
  refine List.forall_mem_append.mpr ⟨List.forall_mem_cons.mpr ⟨hopen, ?_⟩,
    List.forall_mem_singleton.mpr hclose⟩
  split
  · exact List.forall_mem_singleton.mpr hdash
  · exact forall_mem_printNumber hdigit line

/-! ## Mnemonics -/

/-- **The shape of a mnemonic**: a capital letter, then capital letters, digits and underscores. -/
def IsMnemonic (opcode : String) : Prop :=
  ∃ c tail, opcode.toList = c :: tail ∧ isMnemonicStart c = true ∧
    ∀ d ∈ tail, isMnemonicChar d = true

/-- A mnemonic is read back. -/
theorem readMnemonic?_append (h : IsMnemonic opcode)
    (hrest : ∀ d ∈ rest.head?, isMnemonicChar d = false) :
    readMnemonic? (opcode.toList ++ rest) = some (opcode, rest) := by
  obtain ⟨c, tail, hopcode, hc, htail⟩ := h
  rw [hopcode, List.cons_append, readMnemonic?, if_pos hc, takeWhile_append htail hrest,
    dropWhile_append htail hrest, ← hopcode, String.ofList_toList]

/-- What is read as a mnemonic has its shape. -/
theorem isMnemonic_of_readMnemonic? (h : readMnemonic? text = some (opcode, rest)) :
    IsMnemonic opcode := by
  unfold readMnemonic? at h
  split at h
  case h_1 c more =>
    split at h
    case isTrue hc =>
      cases h
      exact ⟨c, _, String.toList_ofList, hc, List.all_eq_true.mp List.all_takeWhile⟩
    case isFalse => cases h
  case h_2 => cases h

/-- The characters of a mnemonic. -/
theorem IsMnemonic.isMnemonicChar (h : IsMnemonic opcode) :
    ∀ c ∈ opcode.toList, isMnemonicChar c = true := by
  obtain ⟨c, tail, hopcode, hc, htail⟩ := h
  rw [hopcode]
  exact List.forall_mem_cons.mpr ⟨by rw [LuaGlobals.isMnemonicChar, hc]; rfl, htail⟩

/-- A mnemonic is not empty. -/
theorem IsMnemonic.ne_nil (h : IsMnemonic opcode) : opcode.toList ≠ [] := by
  obtain ⟨c, tail, hopcode, -⟩ := h
  rw [hopcode]
  exact List.cons_ne_nil c tail

/-- The code points of the characters of a mnemonic. -/
theorem toNat_of_isMnemonicChar (h : isMnemonicChar c = true) :
    48 ≤ c.toNat ∧ c.toNat ≤ 57 ∨ 65 ≤ c.toNat ∧ c.toNat ≤ 90 ∨ c.toNat = 95 := by
  simp only [isMnemonicChar, isMnemonicStart, Bool.or_eq_true, Bool.and_eq_true,
    decide_eq_true_eq, beq_iff_eq, Char.le_def, UInt32.le_iff_toNat_le] at h
  rcases h with (h | h) | rfl
  · exact .inr (.inl h)
  · exact .inl h
  · exact .inr (.inr rfl)

/-- The characters of a mnemonic are not blank. -/
theorem isBlank_of_isMnemonicChar (h : isMnemonicChar c = true) : isBlank c = false := by
  have hcode := toNat_of_isMnemonicChar h
  simp [isBlank, isSpace]
  omega

/-- The characters of a mnemonic break no line. -/
theorem isLineBreak_of_isMnemonicChar (h : isMnemonicChar c = true) : isLineBreak c = false := by
  have hcode := toNat_of_isMnemonicChar h
  simp [isLineBreak]
  omega

/-- The blanks between a mnemonic and its operands. -/
def mnemonicGap (opcode : String) : List Char :=
  List.replicate (9 - opcode.length) ' ' ++ ['\t']

/-- The characters between a mnemonic and its operands. -/
theorem forall_mem_mnemonicGap {motive : Char → Prop} (hspace : motive ' ') (htab : motive '\t')
    (opcode : String) : ∀ c ∈ mnemonicGap opcode, motive c := by
  refine List.forall_mem_append.mpr ⟨fun c hc => ?_, List.forall_mem_singleton.mpr htab⟩
  exact (List.mem_replicate.mp hc).2 ▸ hspace

/-- At least one blank follows a mnemonic. -/
theorem mnemonicGap_ne_nil (opcode : String) : mnemonicGap opcode ≠ [] := by
  simp [mnemonicGap]

/-! ## Operands -/

/-- The characters of printed operands. -/
theorem forall_mem_printOperands {motive : Char → Prop}
    (hdigit : ∀ digit < 10, motive (Nat.digitChar digit)) (hdash : motive '-')
    (hspace : motive ' ') (values : List Int) : ∀ c ∈ printOperands values, motive c := by
  have hoperand (value : Int) : ∀ c ∈ printOperand value, motive c := by
    unfold printOperand
    split
    · exact List.forall_mem_cons.mpr ⟨hdash, forall_mem_printNumber hdigit _⟩
    · exact forall_mem_printNumber hdigit _
  cases values with
  | nil => exact List.forall_mem_nil _
  | cons value values =>
      refine List.forall_mem_append.mpr ⟨hoperand value, fun c hc => ?_⟩
      obtain ⟨other, -, hother⟩ := List.mem_flatMap.mp hc
      exact List.forall_mem_cons.mpr ⟨hspace, hoperand other⟩ c hother

/-- What stands behind an operand and the suffix of a constant. -/
def dropSuffix (text : List Char) : List Char :=
  match text with
  | 'k' :: rest => rest
  | _ => text

/-- A negative operand behind its blanks. -/
theorem readOperand?_of_dash {digits : List Char} {value : Nat}
    (hblanks : readBlanks? text = some ('-' :: digits))
    (hnumber : readNumber? digits = some (value, rest)) :
    readOperand? text = some (-(value : Int), dropSuffix rest) := by
  simp only [readOperand?, hblanks, hnumber, Option.bind_eq_bind, Option.bind_some, if_true]
  rfl

/-- An operand without a sign behind its blanks. -/
theorem readOperand?_of_ne_dash {digits : List Char} {value : Nat}
    (hblanks : readBlanks? text = some digits) (hdash : ∀ c ∈ digits.head?, c ≠ '-')
    (hnumber : readNumber? digits = some (value, rest)) :
    readOperand? text = some ((value : Int), dropSuffix rest) := by
  simp only [readOperand?, hblanks, Option.bind_eq_bind, Option.bind_some]
  split
  case h_1 more => exact absurd rfl (hdash '-' rfl)
  case h_2 =>
    simp only [hnumber, Option.bind_some, Bool.false_eq_true, if_false]
    rfl

/-- **An operand of a line**: the blanks before it, its value, and whether the suffix of a constant
follows it. -/
structure OperandField where
  /-- The blanks before the operand. -/
  gap : Gap
  /-- The value. -/
  value : Int
  /-- Whether the operand carries the suffix of a constant. -/
  isConstant : Bool

namespace OperandField

/-- The suffix. -/
def suffix (operand : OperandField) : List Char :=
  if operand.isConstant then ['k'] else []

/-- The text of an operand. -/
def chars (operand : OperandField) : List Char :=
  operand.gap.chars ++ (printOperand operand.value ++ operand.suffix)

/-- An operand behind a space. -/
def plain (value : Int) : OperandField :=
  ⟨.space, value, false⟩

/-- No digit follows an operand, and nothing is left of its suffix. -/
theorem suffix_append (operand : OperandField)
    (hrest : ∀ c ∈ rest.head?, isDecimal c = false ∧ c ≠ 'k') :
    (∀ c ∈ (operand.suffix ++ rest).head?, isDecimal c = false)
      ∧ dropSuffix (operand.suffix ++ rest) = rest := by
  unfold suffix
  split
  · exact ⟨forall_head?_cons (by decide), rfl⟩
  · refine ⟨fun c hc => (hrest c hc).1, ?_⟩
    rw [List.nil_append]
    unfold dropSuffix
    split
    case h_1 more => exact absurd rfl (hrest 'k' rfl).2
    case h_2 => rfl

/-- **An operand is read back.** -/
theorem readOperand?_append (operand : OperandField)
    (hrest : ∀ c ∈ rest.head?, isDecimal c = false ∧ c ≠ 'k') :
    readOperand? (operand.chars ++ rest) = some (operand.value, rest) := by
  obtain ⟨hend, hsuffix⟩ := operand.suffix_append hrest
  have hnumber : readNumber? (printNumber operand.value.natAbs ++ (operand.suffix ++ rest))
      = some (operand.value.natAbs, operand.suffix ++ rest) := readNumber?_printNumber _ hend
  rw [chars, List.append_assoc, List.append_assoc, printOperand]
  split
  case isTrue hnegative =>
    have hblanks : readBlanks? (operand.gap.chars ++
          '-' :: (printNumber operand.value.natAbs ++ (operand.suffix ++ rest))) = some _ :=
      operand.gap.readBlanks?_append (forall_head?_cons (by decide))
    rw [List.cons_append, readOperand?_of_dash hblanks hnumber, hsuffix,
      show -(operand.value.natAbs : Int) = operand.value by omega]
  case isFalse hnegative =>
    have hblanks : readBlanks? (operand.gap.chars ++
          (printNumber operand.value.natAbs ++ (operand.suffix ++ rest))) = some _ :=
      operand.gap.readBlanks?_append (forall_head?_printNumber (by decide) _ _)
    rw [readOperand?_of_ne_dash hblanks (forall_head?_printNumber (by decide) _ _) hnumber, hsuffix,
      show (operand.value.natAbs : Int) = operand.value by omega]

end OperandField

/-- Where no number follows the blanks, no operand is read. -/
theorem readOperand?_eq_none (h : ∀ c ∈ (dropBlanks text).head?, c ≠ '-' ∧ isDecimal c = false) :
    readOperand? text = none := by
  cases hblanks : readBlanks? text with
  | none => simp only [readOperand?, hblanks, Option.bind_eq_bind, Option.bind_none]
  | some rest =>
      rw [← eq_dropBlanks_of_readBlanks? hblanks] at h
      simp only [readOperand?, hblanks, Option.bind_eq_bind, Option.bind_some]
      split
      case h_1 more => exact absurd rfl (h '-' rfl).1
      case h_2 => rw [readNumber?_eq_none fun c hc => (h c hc).2, Option.bind_none]

/-- A text that ends a row of operands: it does not go on with one, nor with a further one. -/
structure EndsOperands (text : List Char) : Prop where
  /-- The last operand is not longer. -/
  apart : ∀ c ∈ text.head?, isDecimal c = false ∧ c ≠ 'k'
  /-- No operand follows the blanks. -/
  stop : ∀ c ∈ (dropBlanks text).head?, c ≠ '-' ∧ isDecimal c = false

/-- Behind blanks, a text that ends a row of operands holds none. -/
theorem EndsOperands.readOperands_eq (h : EndsOperands rest)
    (hgap : ∀ c ∈ gap, isBlank c = true) (count : Nat) :
    readOperands count (gap ++ rest) = ([], gap ++ rest) := by
  cases count with
  | zero => rfl
  | succ count =>
      rw [readOperands, readOperand?_eq_none]
      rw [dropBlanks, List.dropWhile_append_of_pos hgap]
      exact h.stop

/-- Further operands, too, are apart from the one before them. -/
theorem EndsOperands.apart_flatMap (h : EndsOperands rest) (operands : List OperandField) :
    ∀ c ∈ (operands.flatMap (·.chars) ++ rest).head?, isDecimal c = false ∧ c ≠ 'k' := by
  cases operands with
  | nil => exact h.apart
  | cons operand operands =>
      rw [List.flatMap_cons, OperandField.chars, List.append_assoc, List.append_assoc]
      refine operand.gap.forall_head? (fun c hc => ⟨isDecimal_of_isBlank hc, ?_⟩) _
      rintro rfl
      cases hc

/-- **A row of operands is read back**, up to the number that is asked for. -/
theorem readOperands_fields {count : Nat} {operands : List OperandField}
    (hcount : operands.length ≤ count) (hrest : EndsOperands rest) :
    readOperands count (operands.flatMap (·.chars) ++ rest) = (operands.map (·.value), rest) := by
  induction operands generalizing count with
  | nil => exact hrest.readOperands_eq (List.forall_mem_nil _) count
  | cons operand operands ih =>
      cases count with
      | zero => cases hcount
      | succ count =>
          rw [List.flatMap_cons, List.append_assoc, readOperands,
            operand.readOperand?_append (hrest.apart_flatMap operands)]
          dsimp only
          rw [ih (Nat.le_of_succ_le_succ hcount), List.map_cons]

/-- Printed operands are read back behind blanks. -/
theorem readOperands_printOperands (gap : Gap) {count : Nat} {values : List Int}
    (hcount : values.length ≤ count) (hrest : EndsOperands rest) :
    readOperands count (gap.chars ++ (printOperands values ++ rest))
      = (values, if values = [] then gap.chars ++ rest else rest) := by
  cases values with
  | nil => exact hrest.readOperands_eq gap.blank count
  | cons value values =>
      -- The first operand stands behind the gap, each other one behind a space.
      have hplain : (values.map OperandField.plain).flatMap (·.chars)
          = values.flatMap (' ' :: printOperand ·) := by
        simp [List.flatMap_map, OperandField.chars, OperandField.plain, OperandField.suffix,
          Gap.space]
      have hfirst : OperandField.chars ⟨gap, value, false⟩ = gap.chars ++ printOperand value := by
        simp [OperandField.chars, OperandField.suffix]
      have htext : gap.chars ++ (printOperands (value :: values) ++ rest)
          = (⟨gap, value, false⟩ :: values.map OperandField.plain).flatMap (·.chars) ++ rest := by
        rw [List.flatMap_cons, hfirst, hplain, printOperands]
        simp only [List.append_assoc]
      have hlength : (⟨gap, value, false⟩ :: values.map OperandField.plain).length ≤ count := by
        simpa using hcount
      have hvalues : (⟨gap, value, false⟩ :: values.map OperandField.plain).map (·.value)
          = value :: values := by
        simp [OperandField.plain, Function.comp_def]
      rw [htext, readOperands_fields hlength hrest, hvalues]
      rfl

/-! ## Comment fields -/

/-- The characters of a printed comment with its semicolon. -/
theorem forall_mem_printCommentField {motive : Char → Prop} (htab : motive '\t')
    (hsemicolon : motive ';') (hspace : motive ' ') {comment : List Char}
    (h : ∀ c ∈ comment, motive c) : ∀ c ∈ printCommentField comment, motive c := by
  unfold printCommentField
  split
  · exact List.forall_mem_nil _
  · exact List.forall_mem_cons.mpr ⟨htab, List.forall_mem_cons.mpr ⟨hsemicolon,
      List.forall_mem_cons.mpr ⟨hspace, h⟩⟩⟩

/-- A printed comment ends the operands. -/
theorem endsOperands_printCommentField (comment : List Char) :
    EndsOperands (printCommentField comment) := by
  unfold printCommentField
  split
  case isTrue => constructor <;> rintro _ ⟨⟩
  case isFalse =>
    refine ⟨forall_head?_cons (by decide), ?_⟩
    rw [dropBlanks, List.dropWhile_cons_of_pos (by decide),
      List.dropWhile_cons_of_neg (by decide)]
    exact forall_head?_cons (by decide)

/-- Without a comment only blanks may follow. -/
theorem Blanks.readComment?_eq (blanks : Blanks) : readComment? blanks.chars = some [] := by
  rw [readComment?, dropBlanks_eq_nil blanks.blank]

/-- **A comment is cut to what stands between its blanks.** -/
theorem readComment?_append (blanks : Blanks) {comment : List Char} (hline : '\n' ∉ trim comment) :
    readComment? (blanks.chars ++ ';' :: comment) = some (trim comment) := by
  rw [readComment?, dropBlanks_append blanks.blank (forall_head?_cons (by decide))]
  exact if_neg hline

/-- A printed comment is read back. -/
theorem readComment?_printCommentField {comment : List Char}
    (hgap : ∀ c ∈ gap, isBlank c = true) (hsolid : Solid comment) (hline : '\n' ∉ comment) :
    readComment? (gap ++ printCommentField comment) = some comment := by
  unfold printCommentField
  split
  case isTrue hempty =>
    rw [List.append_nil, hempty]
    exact Blanks.readComment?_eq ⟨gap, hgap⟩
  case isFalse =>
    have htext : gap ++ '\t' :: ';' :: ' ' :: comment
        = (gap ++ ['\t']) ++ ';' :: ' ' :: comment := by simp
    have hblanks : ∀ c ∈ gap ++ ['\t'], isBlank c = true :=
      List.forall_mem_append.mpr ⟨hgap, List.forall_mem_singleton.mpr (by decide)⟩
    have htrim : trim (' ' :: comment) = comment := by
      rw [trim_cons (by decide), hsolid.trim_eq]
    rw [htext, readComment?_append ⟨_, hblanks⟩ (by rwa [htrim]), htrim]

/-- A comment that is read stands on one line. -/
theorem not_mem_of_readComment? {comment : List Char} (h : readComment? text = some comment) :
    '\n' ∉ comment := by
  unfold readComment? at h
  split at h
  case h_1 =>
    cases h
    exact List.not_mem_nil
  case h_2 rest =>
    dsimp only at h
    split at h
    case isTrue => cases h
    case isFalse hline => exact Option.some.inj h ▸ hline
  case h_3 => cases h

end LuaGlobals
