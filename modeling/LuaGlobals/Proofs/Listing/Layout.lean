import LuaGlobals.Listing.Printer
import LuaGlobals.Proofs.Instruction.Field

/-! # The layout of printed blocks

The lines of a block that are no code are read for what they are, whatever name the source has.

* `isPlain` is what stands in these lines beside the name of the source: without a colon, nothing
  there looks like the line numbers behind a name.
* **`readSource?_append`** reads a name up to the last line numbers, and `readHeader?_header` a
  header.
* `isSummary_summary` and `readSectionHeader?_printSectionHeader` are for the other lines. -/

namespace LuaGlobals

open Text

variable {text tail : List Char} {function : PrintedFunction}

/-! ## Plain characters -/

/-- Whether a character may stand anywhere in the layout of a block: it breaks no line, and is not
the colon before the lines of a function. -/
def isPlain (c : Char) : Bool :=
  !isLineBreak c && c != ':'

/-- The end of a word in the singular and in the plural. -/
theorem plural_eq (count : Nat) : plural count = [] ∨ plural count = ['s'] := by
  unfold plural
  split
  · exact .inl rfl
  · exact .inr rfl

/-- The characters at the end of a word. -/
theorem isPlain_of_mem_plural (count : Nat) : ∀ c ∈ plural count, isPlain c = true := by
  rcases plural_eq count with h | h <;> rw [h] <;> exact forall_mem_of_all (by decide)

/-- The characters of a number of things. -/
theorem isPlain_of_mem_printCount {word : String} (h : ∀ c ∈ word.toList, isPlain c = true)
    (count : Nat) : ∀ c ∈ printCount count word, isPlain c = true := by
  simp only [printCount, List.forall_mem_append, List.forall_mem_cons]
  exact ⟨forall_mem_printNumber (by decide) count, by decide, h, isPlain_of_mem_plural count⟩

/-- The characters of an address. -/
theorem isPlain_of_mem_printAddress (address : Nat) :
    ∀ c ∈ printAddress address, isPlain c = true := by
  have hdigits : ∀ c ∈ Nat.toDigits 16 address, isPlain c = true := by
    have hdigit : ∀ digit < 16, isPlain (Nat.digitChar digit) = true := by decide
    intro c hc
    obtain ⟨digit, hlt, rfl⟩ := exists_digitChar (by decide) hc
    exact hdigit digit hlt
  simp only [printAddress, List.forall_mem_cons]
  exact ⟨by decide, by decide, hdigits⟩

/-- Plain characters break no line. -/
theorem isLineBreak_of_isPlain {c : Char} (h : isPlain c = true) : isLineBreak c = false := by
  simp only [isPlain, Bool.and_eq_true, Bool.not_eq_true'] at h
  exact h.1

/-- The colon is not plain. -/
theorem not_mem_of_isPlain (h : ∀ c ∈ text, isPlain c = true) : ':' ∉ text :=
  fun hcolon => by cases h ':' hcolon

/-! ## Headers -/

/-- The characters of a number of bytes. -/
theorem isPlain_of_mem_printByteCount (bytes? : Option Nat) :
    ∀ c ∈ printByteCount bytes?, isPlain c = true := by
  cases bytes? with
  | none => exact List.forall_mem_nil _
  | some bytes =>
      simp only [printByteCount, List.forall_mem_append]
      exact ⟨⟨forall_mem_of_all (by decide), forall_mem_printNumber (by decide) _⟩,
        forall_mem_of_all (by decide)⟩

/-- The characters at the end of a header. -/
theorem isPlain_of_mem_codeSize (function : PrintedFunction) :
    ∀ c ∈ function.codeSize, isPlain c = true := by
  simp only [PrintedFunction.codeSize, List.forall_mem_append]
  exact ⟨⟨⟨⟨⟨forall_mem_of_all (by decide),
    isPlain_of_mem_printCount (forall_mem_of_all (by decide)) _⟩,
    isPlain_of_mem_printByteCount _⟩, forall_mem_of_all (by decide)⟩,
    isPlain_of_mem_printAddress _⟩, forall_mem_of_all (by decide)⟩

/-- Without a colon no line numbers end a name. -/
theorem readSource?_eq_none (h : ':' ∉ text) : readSource? text = none := by
  induction text with
  | nil => rfl
  | cons c rest ih =>
      rw [List.mem_cons, not_or] at h
      have hspan : readLineSpan? (c :: rest) = none := by
        unfold readLineSpan?
        split
        case h_1 heq => exact absurd (List.cons.inj heq).1.symm h.1
        case h_2 => rfl
      rw [readSource?, ih h.2]
      exact congrArg (Option.map _) hspan

/-- The line numbers behind a name are read. -/
theorem readLineSpan?_append (first last : Nat) (tail : List Char) :
    readLineSpan? (':' :: (printNumber first ++ ',' :: (printNumber last ++ '>' :: tail)))
      = some first := by
  have hfirst : readNumber? (printNumber first ++ ',' :: (printNumber last ++ '>' :: tail))
      = some (first, _) := readNumber?_printNumber first (forall_head?_cons (by decide))
  have hlast : readNumber? (printNumber last ++ '>' :: tail) = some (last, _) :=
    readNumber?_printNumber last (forall_head?_cons (by decide))
  simp only [readLineSpan?, hfirst, hlast]

/-- **A name is read up to the last line numbers**, whatever it holds itself. -/
theorem readSource?_append (source : List Char) (first last : Nat) (htail : ':' ∉ tail) :
    readSource? (source ++ ':' :: (printNumber first ++ ',' :: (printNumber last ++ '>' :: tail)))
      = some (source, first) := by
  induction source with
  | nil =>
      have hnumber (number : Nat) : ':' ∉ printNumber number :=
        fun hcolon => forall_mem_printNumber (motive := (· ≠ ':')) (by decide) number _ hcolon rfl
      -- No colon stands behind the first one, so no later line numbers are found.
      have hnone : readSource? (printNumber first ++ ',' :: (printNumber last ++ '>' :: tail))
          = none :=
        readSource?_eq_none (by simp [hnumber, htail])
      rw [List.nil_append, readSource?, hnone]
      simp only [readLineSpan?_append, Option.map_some]
  | cons c source ih => rw [List.cons_append, readSource?, ih]

/-- The word that opens a header is read. -/
theorem readFunctionKind?_append (kind : FunctionKind) (rest : List Char) :
    readFunctionKind? (kind.keyword.toList ++ rest) = some (kind, rest) := by
  cases kind <;> rfl

/-- A header holds no line break. -/
theorem isLineBreak_of_mem_header
    (hsource : ∀ c ∈ function.source.toList, isLineBreak c = false) :
    ∀ c ∈ function.header, isLineBreak c = false := by
  have hkind : ∀ c ∈ function.kind.keyword.toList, isLineBreak c = false := by
    cases function.kind <;> exact forall_mem_of_all (by decide)
  have hnumber := forall_mem_printNumber (motive := (isLineBreak · = false)) (by decide)
  simp only [PrintedFunction.header, List.forall_mem_append, List.forall_mem_cons]
  exact ⟨hkind, by decide, by decide, hsource, by decide, hnumber _, by decide, hnumber _,
    by decide, fun c hc => isLineBreak_of_isPlain (isPlain_of_mem_codeSize function c hc)⟩

/-- A printed header is read back. -/
theorem readHeader?_header
    (hsource : ∀ c ∈ function.source.toList, isLineBreak c = false) :
    readHeader? function.header
      = some ⟨function.kind, function.source, function.lineDefined⟩ := by
  have hdrop : dropBlanks function.header = function.header := by
    refine dropBlanks_eq_self ?_
    rw [PrintedFunction.header]
    cases function.kind <;> exact forall_head?_cons (by decide)
  have hbreak := isLineBreak_of_mem_header hsource
  rw [readHeader?, hdrop]
  rw [PrintedFunction.header] at hbreak ⊢
  have hspan := readSource?_append function.source.toList function.lineDefined function.lastLine
    (not_mem_of_isPlain (isPlain_of_mem_codeSize function))
  generalize function.source.toList ++ _ = text at hspan hbreak ⊢
  have hblank : readBlanks? (' ' :: '<' :: text) = some ('<' :: text) :=
    readBlanks?_cons (by decide) (forall_head?_cons (by decide))
  have hline : text.takeWhile (· != '\n') = text := by
    refine takeWhile_eq_self fun c hc => ?_
    have hc := hbreak c (by simp [hc])
    rw [bne_iff_ne]
    rintro rfl
    cases hc
  simp only [readFunctionKind?_append, hblank, hline, hspan, Option.bind_eq_bind,
    Option.bind_some, String.ofList_toList]
  rfl

/-! ## Summaries -/

/-- A line is a summary when the word for the parameters stands behind their number, with or without
a plus sign between them. -/
theorem isSummary_of_params {line text words rest : List Char} {count params : Nat}
    (hnumber : readNumber? (dropBlanks line) = some (count, text))
    (htext : text = '+' :: words ∨ text = words)
    (hwords : words = ' ' :: ("param".toList ++ (plural params ++ ',' :: rest))) :
    isSummary line = true := by
  have hblanks : readBlanks? words = some ("param".toList ++ (plural params ++ ',' :: rest)) := by
    rw [hwords]
    exact readBlanks?_cons (by decide) (forall_head?_cons (by decide))
  have hparam : "param".toList.isPrefixOf? ("param".toList ++ (plural params ++ ',' :: rest))
      = some (plural params ++ ',' :: rest) := rfl
  have hplus : ∀ more, words = '+' :: more → False := by
    rintro more rfl
    cases hwords
  rcases htext with rfl | rfl <;>
    simp only [isSummary, hnumber, Option.bind_eq_bind, Option.bind_some, hblanks, hparam] <;>
    rcases plural_eq params with hplural | hplural <;> rw [hplural] <;> rfl

/-- A printed summary is one. -/
theorem isSummary_summary (function : PrintedFunction) : isSummary function.summary = true := by
  obtain ⟨counts, hcounts⟩ : ∃ counts, function.otherCounts = ',' :: counts := ⟨_, rfl⟩
  have hnumber {text : List Char} (h : ∀ c ∈ text.head?, isDecimal c = false) :
      readNumber? (dropBlanks (printNumber function.layout.params ++ text))
        = some (function.layout.params, text) := by
    rw [dropBlanks_eq_self (forall_head?_printNumber (by decide) _ _)]
    exact readNumber?_printNumber _ h
  rw [PrintedFunction.summary, hcounts]
  split
  · exact isSummary_of_params (hnumber (forall_head?_cons (by decide))) (.inl rfl) rfl
  · exact isSummary_of_params (hnumber (forall_head?_cons (by decide))) (.inr rfl) rfl

/-- The characters at the end of a summary. -/
theorem isPlain_of_mem_otherCounts (function : PrintedFunction) :
    ∀ c ∈ function.otherCounts, isPlain c = true := by
  have hcount {word : String} (h : ∀ c ∈ word.toList, isPlain c = true) (count : Nat) :
      ∀ c ∈ ", ".toList ++ printCount count word, isPlain c = true :=
    List.forall_mem_append.mpr ⟨forall_mem_of_all (by decide), isPlain_of_mem_printCount h count⟩
  simp only [PrintedFunction.otherCounts, List.flatMap_cons, List.flatMap_nil, List.append_nil]
  iterate 4 refine List.forall_mem_append.mpr ⟨hcount (forall_mem_of_all (by decide)) _, ?_⟩
  exact hcount (forall_mem_of_all (by decide)) _

/-- A summary holds no line break. -/
theorem isLineBreak_of_mem_summary (function : PrintedFunction) :
    ∀ c ∈ function.summary, isLineBreak c = false := by
  have hmark : ∀ c ∈ (if function.layout.variadic then ['+'] else []), isPlain c = true := by
    split <;> exact forall_mem_of_all (by decide)
  have hplain : ∀ c ∈ function.summary, isPlain c = true := by
    simp only [PrintedFunction.summary, List.forall_mem_append, List.forall_mem_cons]
    exact ⟨forall_mem_printNumber (by decide) _, hmark, by decide, forall_mem_of_all (by decide),
      isPlain_of_mem_plural _, isPlain_of_mem_otherCounts function⟩
  exact fun c hc => isLineBreak_of_isPlain (hplain c hc)

/-! ## Headers of sections -/

/-- The header of a section is read back. -/
theorem readSectionHeader?_printSectionHeader (kind : SectionKind) (count address : Nat) :
    readSectionHeader? (printSectionHeader kind count address) = some (kind, count) := by
  have hdrop : dropBlanks (printSectionHeader kind count address)
      = printSectionHeader kind count address := by
    refine dropBlanks_eq_self ?_
    cases kind <;> exact forall_head?_cons (by decide)
  have hkind (rest : List Char) :
      readSectionKind? (kind.keyword.toList ++ rest) = some (kind, rest) := by
    cases kind <;> rfl
  rw [readSectionHeader?, hdrop, printSectionHeader]
  generalize " for ".toList ++ printAddress address ++ [':'] = rest
  have hblanks : readBlanks? (' ' :: '(' :: (printNumber count ++ ')' :: rest)) = some _ :=
    readBlanks?_cons (by decide) (forall_head?_cons (by decide))
  have hnumber : readNumber? (printNumber count ++ ')' :: rest) = some (count, _) :=
    readNumber?_printNumber count (forall_head?_cons (by decide))
  simp only [hkind, hblanks, hnumber, Option.bind_eq_bind, Option.bind_some]

/-- The header of a section holds no line break. -/
theorem isLineBreak_of_mem_printSectionHeader (kind : SectionKind) (count address : Nat) :
    ∀ c ∈ printSectionHeader kind count address, isLineBreak c = false := by
  have hkeyword : ∀ c ∈ kind.keyword.toList, isLineBreak c = false := by
    cases kind <;> exact forall_mem_of_all (by decide)
  simp only [printSectionHeader, List.forall_mem_append, List.forall_mem_cons]
  exact ⟨hkeyword, by decide, by decide, forall_mem_printNumber (by decide) count, by decide,
    ⟨forall_mem_of_all (by decide),
      fun c hc => isLineBreak_of_isPlain (isPlain_of_mem_printAddress address c hc)⟩,
    by decide, List.forall_mem_nil _⟩

end LuaGlobals
