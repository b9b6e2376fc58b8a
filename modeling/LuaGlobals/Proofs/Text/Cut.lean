import LuaGlobals.Text.Blank
import LuaGlobals.Text.Lines

/-! # Where texts are cut

A reader cuts a text where a kind of characters ends. What it cuts off is said here for texts that
were put together from such parts.

* `takeWhile_append` and `dropWhile_append` part two texts at the first character of the second.
* `dropBlanks_append` and **`trim_append`** are for blanks, and `Solid.trim_eq` and
  `Solid.trim_append` for texts with none at their ends.
* **`isLineBreak_of_mem_splitLines`**: no line holds a line break.
* **`splitLines_joinLines`**: lines that are joined are split again. -/

namespace LuaGlobals.Text

/-! ## Runs of characters -/

variable {p : Char → Bool} {front rest text : List Char}

/-- What holds of the first character of a text. -/
theorem forall_head?_cons {motive : Char → Prop} {c : Char} (h : motive c) :
    ∀ d ∈ (c :: rest).head?, motive d := by
  rintro _ ⟨⟩
  exact h

/-- What was checked of the characters of a text holds of each of them. -/
theorem forall_mem_of_all {motive : Char → Prop} [DecidablePred motive]
    (h : text.all (motive ·) = true) : ∀ c ∈ text, motive c :=
  fun c hc => of_decide_eq_true (List.all_eq_true.mp h c hc)

/-- What holds of all characters of a text holds of the first one, whatever follows the text. -/
theorem forall_head?_append {motive : Char → Prop} (hne : front ≠ [])
    (h : ∀ c ∈ front, motive c) (rest : List Char) : ∀ d ∈ (front ++ rest).head?, motive d := by
  obtain ⟨c, tail, rfl⟩ := List.exists_cons_of_ne_nil hne
  exact forall_head?_cons (h c List.mem_cons_self)

/-- A run ends where the next text does not start with a character of its kind. -/
theorem takeWhile_append (hfront : ∀ c ∈ front, p c = true)
    (hrest : ∀ c ∈ rest.head?, p c = false) :
    (front ++ rest).takeWhile p = front := by
  rw [List.takeWhile_append_of_pos hfront]
  cases rest with
  | nil => rw [List.takeWhile_nil, List.append_nil]
  | cons c rest =>
      have hc : ¬ p c = true := Bool.eq_false_iff.mp (hrest c rfl)
      rw [List.takeWhile_cons_of_neg hc, List.append_nil]

/-- A text of one kind of characters is one run. -/
theorem takeWhile_eq_self (h : ∀ c ∈ text, p c = true) : text.takeWhile p = text := by
  have hrun := takeWhile_append h (show ∀ c ∈ ([] : List Char).head?, p c = false by rintro _ ⟨⟩)
  rwa [List.append_nil] at hrun

/-- Behind a run stands the next text. -/
theorem dropWhile_append (hfront : ∀ c ∈ front, p c = true)
    (hrest : ∀ c ∈ rest.head?, p c = false) :
    (front ++ rest).dropWhile p = rest := by
  rw [List.dropWhile_append_of_pos hfront]
  cases rest with
  | nil => rfl
  | cons c rest => exact List.dropWhile_cons_of_neg (Bool.eq_false_iff.mp (hrest c rfl))

/-- Nothing is cut off a text that does not start with a character of the kind. -/
theorem dropWhile_eq_self (h : ∀ c ∈ text.head?, p c = false) : text.dropWhile p = text :=
  dropWhile_append (List.forall_mem_nil _) h

/-! ## Blanks -/

/-- Blanks in front are dropped. -/
theorem dropBlanks_append (hfront : ∀ c ∈ front, isBlank c = true)
    (hrest : ∀ c ∈ rest.head?, isBlank c = false) : dropBlanks (front ++ rest) = rest :=
  dropWhile_append hfront hrest

/-- A text with no blank in front stays. -/
theorem dropBlanks_eq_self (h : ∀ c ∈ text.head?, isBlank c = false) : dropBlanks text = text :=
  dropWhile_eq_self h

/-- Of a text of blanks nothing stays. -/
theorem dropBlanks_eq_nil (h : ∀ c ∈ text, isBlank c = true) : dropBlanks text = [] := by
  rw [← List.append_nil text]
  exact dropBlanks_append h (by rintro _ ⟨⟩)

/-- A text with no blank at its ends. -/
structure Solid (text : List Char) : Prop where
  /-- The first character is not blank. -/
  first : ∀ c ∈ text.head?, isBlank c = false
  /-- The last character is not blank. -/
  last : ∀ c ∈ text.getLast?, isBlank c = false

/-- A text without blanks. -/
theorem Solid.of_forall (h : ∀ c ∈ text, isBlank c = false) : Solid text where
  first c hc := h c (List.mem_of_mem_head? hc)
  last c hc := h c (List.mem_of_getLast? hc)

/-- Between two texts anything may stand. -/
theorem Solid.append (hfront : Solid front) (hrest : Solid rest) (hne : front ≠ [])
    (hne' : rest ≠ []) (gap : List Char) : Solid (front ++ gap ++ rest) where
  first := by
    obtain ⟨c, tail, rfl⟩ := List.exists_cons_of_ne_nil hne
    exact hfront.first
  last := by
    rw [List.getLast?_append, List.getLast?_eq_some_getLast hne', Option.some_or,
      ← List.getLast?_eq_some_getLast]
    exact hrest.last

/-- A text with no blank at its ends is not trimmed. -/
theorem Solid.trim_eq (h : Solid text) : trim text = text := by
  have hend : dropBlanks text.reverse = text.reverse :=
    dropBlanks_eq_self (by rw [List.head?_reverse]; exact h.last)
  rw [trim, dropBlanks_eq_self h.first, dropBlanksEnd, ← dropBlanks, hend, List.reverse_reverse]

/-- A blank in front is trimmed. -/
theorem trim_cons {c : Char} (h : isBlank c = true) (text : List Char) :
    trim (c :: text) = trim text := by
  rw [trim, dropBlanks, List.dropWhile_cons_of_pos h]
  rfl

/-- Blanks at the end are dropped. -/
theorem dropBlanksEnd_append {back : List Char} (hback : ∀ c ∈ back, isBlank c = true)
    (text : List Char) : dropBlanksEnd (text ++ back) = dropBlanksEnd text := by
  have hreverse : ∀ c ∈ back.reverse, isBlank c = true :=
    fun c hc => hback c (List.mem_reverse.mp hc)
  rw [dropBlanksEnd, List.reverse_append, List.dropWhile_append_of_pos hreverse, dropBlanksEnd]

/-- **Blanks on both sides are trimmed.** -/
theorem trim_append {back : List Char} (hfront : ∀ c ∈ front, isBlank c = true)
    (hback : ∀ c ∈ back, isBlank c = true) (text : List Char) :
    trim (front ++ (text ++ back)) = trim text := by
  rw [trim, trim, dropBlanks, List.dropWhile_append_of_pos hfront, List.dropWhile_append, dropBlanks]
  split
  case isTrue hempty =>
    -- Nothing but blanks: all of them go from the front.
    have hblank : dropBlanks text = [] := by simpa [dropBlanks] using hempty
    rw [← dropBlanks, dropBlanks_eq_nil hback, ← dropBlanks, hblank]
  case isFalse => exact dropBlanksEnd_append hback _

/-- What stays of a trimmed text was in it. -/
theorem mem_of_mem_trim {c : Char} (h : c ∈ trim text) : c ∈ text := by
  have hend : c ∈ dropBlanks text :=
    List.mem_reverse.mp ((List.dropWhile_sublist _).subset (List.mem_reverse.mp h))
  exact (List.dropWhile_sublist _).subset hend

/-- Behind a text with no blank at its ends only the end is trimmed. -/
theorem Solid.trim_append (h : Solid front) (hne : front ≠ []) (more : List Char) :
    trim (front ++ more) = front ++ dropBlanksEnd more := by
  have hfirst : ∀ c ∈ (front ++ more).head?, isBlank c = false := by
    obtain ⟨c, tail, rfl⟩ := List.exists_cons_of_ne_nil hne
    exact h.first
  have hstop : front.reverse.dropWhile isBlank = front.reverse :=
    dropWhile_eq_self (by rw [List.head?_reverse]; exact h.last)
  rw [trim, dropBlanks_eq_self hfirst, dropBlanksEnd, List.reverse_append, List.dropWhile_append]
  split
  case isTrue hblank =>
    have hnil : more.reverse.dropWhile isBlank = [] := by simpa using hblank
    rw [hstop, List.reverse_reverse, dropBlanksEnd, hnil, List.reverse_nil, List.append_nil]
  case isFalse => rw [List.reverse_append, List.reverse_reverse, dropBlanksEnd]

/-- Where the end is trimmed, a text still starts as it did. -/
theorem head?_dropBlanksEnd {c : Char} (h : c ∈ (dropBlanksEnd text).head?) : c ∈ text.head? := by
  obtain ⟨back, hback⟩ : dropBlanksEnd text <+: text := by
    rw [dropBlanksEnd, ← List.reverse_suffix, List.reverse_reverse]
    exact List.dropWhile_suffix _
  rw [← hback, List.head?_append, h]
  rfl

/-! ## Lines -/

/-- A line is cut off at its line feed. -/
theorem cutLine_append {line : List Char} (h : ∀ c ∈ line, isLineBreak c = false)
    (rest : List Char) : cutLine (line ++ '\n' :: rest) = (line, rest) := by
  induction line with
  | nil => rfl
  | cons c line ih =>
      obtain ⟨hc, hline⟩ := List.forall_mem_cons.mp h
      have hreturn : c ≠ '\r' := by
        rintro rfl
        cases hc
      rw [List.cons_append, cutLine, hc, ih hline]
      · rfl
      · exact fun _ heq => absurd heq hreturn

/-- The first line of a text holds no line break. -/
theorem isLineBreak_of_mem_cutLine (text : List Char) :
    ∀ c ∈ (cutLine text).1, isLineBreak c = false := by
  fun_induction cutLine text with
  | case1 => exact List.forall_mem_nil _
  | case2 rest => exact List.forall_mem_nil _
  | case3 c rest _ hbreak => exact List.forall_mem_nil _
  | case4 c rest _ hbreak line after hcut ih =>
      rw [hcut] at ih
      exact List.forall_mem_cons.mpr ⟨Bool.eq_false_iff.mpr hbreak, ih⟩

/-- **No line of a text holds a line break.** -/
theorem isLineBreak_of_mem_splitLines (text : List Char) :
    ∀ line ∈ splitLines text, ∀ c ∈ line, isLineBreak c = false := by
  fun_induction splitLines text with
  | case1 => exact List.forall_mem_nil _
  | case2 text hne ih => exact List.forall_mem_cons.mpr ⟨isLineBreak_of_mem_cutLine text, ih⟩

/-- **Joined lines are split again**, when none of them holds a line break. -/
theorem splitLines_joinLines {lines : List (List Char)}
    (h : ∀ line ∈ lines, ∀ c ∈ line, isLineBreak c = false) :
    splitLines (joinLines lines) = lines := by
  induction lines with
  | nil => rw [joinLines, List.flatMap_nil, splitLines, if_pos rfl]
  | cons line lines ih =>
      obtain ⟨hline, hlines⟩ := List.forall_mem_cons.mp h
      have htext : joinLines (line :: lines) = line ++ '\n' :: joinLines lines := by
        simp [joinLines]
      have hne : line ++ '\n' :: joinLines lines ≠ [] := by simp
      rw [htext, splitLines, if_neg hne, cutLine_append hline, ih hlines]

/-- A line without line breaks has no line end to drop. -/
theorem dropLineEnd_eq_self {line : List Char} (h : ∀ c ∈ line, isLineBreak c = false) :
    dropLineEnd line = line := by
  have hend : line.reverse.dropWhile (fun c => c == '\r' || c == '\n') = line.reverse := by
    refine dropWhile_eq_self fun c hc => ?_
    have hbreak := h c (List.mem_reverse.mp (List.mem_of_mem_head? hc))
    rw [Bool.or_eq_false_iff, beq_eq_false_iff_ne, beq_eq_false_iff_ne]
    constructor <;> (rintro rfl; cases hbreak)
  rw [dropLineEnd, hend, List.reverse_reverse]

end LuaGlobals.Text
