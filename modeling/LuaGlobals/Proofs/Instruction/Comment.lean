import LuaGlobals.Instruction.Comment
import LuaGlobals.Proofs.Text.Cut

/-! # Tokens of comments

A comment falls into tokens from its front. A token is closed when it ends by itself, at its closing
quote or before a blank. It is open when it starts with a quote that the comment never closes, and
then a blank ends it.

* `QuotedBody` is what follows the opening quote of a quoted string, and what `cutQuoted?` cuts off.
* `unquote?_quoteToken` says that quoting a payload is undone.
* `IsClosed` and `IsOpen` are the two kinds of tokens. A closed one stays what it is in front of a
  blank (**`IsClosed.commentTokens_append`**), an open one only at the end of a comment.
* The first token of a comment is of one of the two kinds (**`isClosed_or_isOpen`**), and no quoted
  string follows an open one (**`isClosed_of_unquote?`**). -/

namespace LuaGlobals

open Text

variable {c : Char} {text body rest token : List Char}

/-! ## Quoted strings -/

/-- What follows the opening quote of a quoted string, up to the closing quote. -/
inductive QuotedBody : List Char → Prop
  /-- The closing quote. -/
  | close : QuotedBody ['"']
  /-- A backslash with the character that it escapes. -/
  | escape {c : Char} {body : List Char} (hc : c ≠ '\n') (h : QuotedBody body) :
    QuotedBody ('\\' :: c :: body)
  /-- Any other character. -/
  | plain {c : Char} {body : List Char} (hquote : c ≠ '"') (hslash : c ≠ '\\')
    (h : QuotedBody body) : QuotedBody (c :: body)

/-- A quoted string is cut off whatever follows it. -/
theorem QuotedBody.cutQuoted?_append (h : QuotedBody body) (rest : List Char) :
    cutQuoted? (body ++ rest) = some (body, rest) := by
  induction h with
  | close => rfl
  | escape hc _ ih => simp [cutQuoted?, hc, ih]
  | plain hquote hslash _ ih => simp [cutQuoted?, hslash, ih]

/-- A character that starts no text as another one would is not that other one. -/
theorem ne_of_forall_ne {c d : Char} {rest : List Char} (hnil : c = d → rest = [] → False)
    (hcons : ∀ e more, c = d → rest = e :: more → False) : c ≠ d := by
  intro heq
  cases rest with
  | nil => exact hnil heq rfl
  | cons e more => exact hcons e more heq rfl

/-- What is cut off is a quoted string. -/
theorem quotedBody_of_cutQuoted? (h : cutQuoted? text = some (body, rest)) : QuotedBody body := by
  fun_induction cutQuoted? text generalizing body rest with
  | case1 => cases h
  | case2 => cases h
  | case3 => cases h
  | case4 c rest' hc ih =>
    obtain ⟨⟨inner, tail⟩, hcut, ⟨⟩⟩ := Option.map_eq_some_iff.mp h
    exact .escape hc (ih hcut)
  | case5 rest' =>
    cases h
    exact .close
  | case6 c rest' hend hescape hquote ih =>
    obtain ⟨⟨inner, tail⟩, hcut, ⟨⟩⟩ := Option.map_eq_some_iff.mp h
    exact .plain hquote (ne_of_forall_ne hend hescape) (ih hcut)

/-- A quoted string ends with a quote. -/
theorem QuotedBody.exists_append (h : QuotedBody body) : ∃ inner, body = inner ++ ['"'] := by
  induction h with
  | close => exact ⟨[], rfl⟩
  | escape _ _ ih =>
      obtain ⟨inner, rfl⟩ := ih
      exact ⟨_ :: _ :: inner, rfl⟩
  | plain _ _ _ ih =>
      obtain ⟨inner, rfl⟩ := ih
      exact ⟨_ :: inner, rfl⟩

/-- A quoted string is closed on a line with a quote that no backslash stands before. -/
theorem isSome_cutQuoted? {front : List Char} (hline : '\n' ∉ front)
    (hlast : front.getLast? ≠ some '\\') (rest : List Char) :
    (cutQuoted? (front ++ '"' :: rest)).isSome := by
  fun_induction cutQuoted? front with
  | case1 => rfl
  | case2 => exact absurd rfl hlast
  | case3 rest' => simp at hline
  | case4 c rest' hc ih =>
    simpa [cutQuoted?, hc] using ih (by simp_all) (by cases rest' <;> simp_all)
  | case5 rest' => simp [cutQuoted?]
  | case6 c rest' hend hescape hquote ih =>
    have hslash : c ≠ '\\' := ne_of_forall_ne hend hescape
    simpa [cutQuoted?, hslash] using ih (by simp_all) (by cases rest' <;> simp_all)

/-- An escaped payload with its closing quote. -/
theorem quotedBody_escapePayload (payload : List Char) :
    QuotedBody (escapePayload payload ++ ['"']) := by
  induction payload with
  | nil => exact .close
  | cons c payload ih =>
      rw [escapePayload, List.flatMap_cons, List.append_assoc, ← escapePayload]
      split
      case isTrue hc =>
        refine .escape ?_ ih
        rcases hc with rfl | rfl <;> decide
      case isFalse hc =>
        rw [not_or] at hc
        exact .plain hc.1 hc.2 ih

/-! ## Payloads -/

/-- Escaping a payload is undone. -/
theorem unescape_escapePayload (payload : List Char) :
    unescape (escapePayload payload) = payload := by
  induction payload with
  | nil => rfl
  | cons c payload ih =>
      rw [escapePayload, List.flatMap_cons, ← escapePayload]
      split
      case isTrue hc =>
        have hline : c ≠ '\n' := by rcases hc with rfl | rfl <;> decide
        rw [List.cons_append, List.singleton_append, unescape, if_neg hline, ih]
      case isFalse hc =>
        rw [not_or] at hc
        rw [List.singleton_append, unescape, ih]
        exact fun _ _ heq _ => hc.2 heq

/-- **Quoting a payload is undone.** -/
theorem unquote?_quoteToken (payload : List Char) :
    unquote? (quoteToken payload) = some payload := by
  rw [quoteToken, List.cons_append, unquote?, List.getLast?_concat, if_pos rfl,
    List.dropLast_concat, unescape_escapePayload]

/-- A token that starts with no quote has no payload. -/
theorem unquote?_of_ne (h : c ≠ '"') (rest : List Char) : unquote? (c :: rest) = none := by
  unfold unquote?
  split
  case h_1 heq => exact absurd (List.cons.inj heq).1 h
  case h_2 => rfl

/-! ## Steps through a comment -/

/-- The tokens of a comment, without the measure of the recursion. -/
theorem commentTokens_eq (comment : List Char) :
    commentTokens comment =
      match dropBlanks comment with
      | [] => []
      | c :: rest => (cutToken c rest).1 :: commentTokens (cutToken c rest).2 := by
  rw [commentTokens]
  split
  case h_1 hdrop => simp only [hdrop]
  case h_2 c rest hdrop => simp only [hdrop]

/-- A comment without characters has no tokens. -/
@[simp] theorem commentTokens_nil : commentTokens [] = [] :=
  commentTokens_eq []

/-- A blank in front of a comment does not matter. -/
theorem commentTokens_cons_of_isBlank (h : isBlank c = true) (comment : List Char) :
    commentTokens (c :: comment) = commentTokens comment := by
  rw [commentTokens_eq, commentTokens_eq comment, dropBlanks, List.dropWhile_cons_of_pos h]
  rfl

/-- A character that is not blank starts the first token. -/
theorem commentTokens_cons (h : isBlank c = false) (rest : List Char) :
    commentTokens (c :: rest) = (cutToken c rest).1 :: commentTokens (cutToken c rest).2 := by
  rw [commentTokens_eq, dropBlanks_eq_self (by rintro _ ⟨⟩; exact h)]

/-! ## Closed and open tokens -/

/-- **A token that ends by itself**: a quoted string, or a run of characters that starts with no
quote and holds no blank. -/
inductive IsClosed : List Char → Prop
  /-- A quoted string. -/
  | quoted {body : List Char} (h : QuotedBody body) : IsClosed ('"' :: body)
  /-- A run of characters. -/
  | bare {c : Char} {rest : List Char} (hquote : c ≠ '"')
    (hblank : ∀ d ∈ c :: rest, isBlank d = false) : IsClosed (c :: rest)

/-- A token that starts with a quote which is never closed, and holds no blank. -/
inductive IsOpen : List Char → Prop
  /-- The quote and the run of characters behind it. -/
  | unclosed {rest : List Char} (hquote : cutQuoted? rest = none)
    (hblank : ∀ d ∈ rest, isBlank d = false) : IsOpen ('"' :: rest)

/-- Cutting off a token that is no quoted string. -/
theorem cutToken_of_bare {more : List Char}
    (hquote : (if c = '"' then cutQuoted? (rest ++ more) else none) = none)
    (hblank : ∀ d ∈ rest, isBlank d = false) (hmore : ∀ d ∈ more.head?, isBlank d = true) :
    cutToken c (rest ++ more) = (c :: rest, more) := by
  have hrun : ∀ d ∈ rest, (!isBlank d) = true := fun d hd => by rw [hblank d hd]; rfl
  have hstop : ∀ d ∈ more.head?, (!isBlank d) = false := fun d hd => by rw [hmore d hd]; rfl
  rw [cutToken, hquote]
  exact Prod.ext (congrArg (c :: ·) (takeWhile_append hrun hstop)) (dropWhile_append hrun hstop)

/-- **Closed tokens stay what they are** in front of a text that starts with a blank. -/
theorem IsClosed.commentTokens_append (h : IsClosed token) {more : List Char}
    (hmore : ∀ d ∈ more.head?, isBlank d = true) :
    commentTokens (token ++ more) = token :: commentTokens more := by
  cases h with
  | quoted hbody =>
      rw [List.cons_append, commentTokens_cons (by decide), cutToken, if_pos rfl,
        hbody.cutQuoted?_append]
  | bare hquote hblank =>
      obtain ⟨hc, hrest⟩ := List.forall_mem_cons.mp hblank
      rw [List.cons_append, commentTokens_cons hc, cutToken_of_bare (if_neg hquote) hrest hmore]

/-- A closed token alone. -/
theorem IsClosed.commentTokens_eq (h : IsClosed token) : commentTokens token = [token] := by
  have htokens := h.commentTokens_append (show ∀ d ∈ ([] : List Char).head?, _ from by simp)
  rwa [List.append_nil, commentTokens_nil] at htokens

/-- An open token alone. -/
theorem IsOpen.commentTokens_eq (h : IsOpen token) : commentTokens token = [token] := by
  cases h with
  | @unclosed rest hquote hblank =>
      have hcut : cutToken '"' (rest ++ []) = ('"' :: rest, []) :=
        cutToken_of_bare (by rwa [if_pos rfl, List.append_nil]) hblank (by simp)
      rw [List.append_nil] at hcut
      rw [commentTokens_cons (by decide), hcut, commentTokens_nil]

/-- A quoted payload is a closed token. -/
theorem isClosed_quoteToken (payload : List Char) : IsClosed (quoteToken payload) :=
  .quoted (quotedBody_escapePayload payload)

/-- A closed token has no blank at its ends. -/
theorem IsClosed.solid (h : IsClosed token) : Solid token := by
  cases h with
  | quoted hbody =>
      obtain ⟨inner, rfl⟩ := hbody.exists_append
      refine ⟨fun c hc => ?_, fun c hc => ?_⟩
      · cases hc
        decide
      · rw [← List.cons_append, List.getLast?_concat] at hc
        cases hc
        decide
  | bare _ hblank => exact .of_forall hblank

/-- An open token has no blank at its ends. -/
theorem IsOpen.solid (h : IsOpen token) : Solid token := by
  cases h with
  | unclosed _ hblank => exact .of_forall (List.forall_mem_cons.mpr ⟨by decide, hblank⟩)

/-- A closed token is not empty. -/
theorem IsClosed.ne_nil (h : IsClosed token) : token ≠ [] := by
  rintro rfl
  cases h

/-- An open token is not empty. -/
theorem IsOpen.ne_nil (h : IsOpen token) : token ≠ [] := by
  rintro rfl
  cases h

/-! ## The first token of a comment -/

/-- Where the first token of a comment comes from. -/
theorem exists_cutToken {comment : List Char} {later : List (List Char)}
    (h : commentTokens comment = token :: later) :
    ∃ c rest, dropBlanks comment = c :: rest ∧ isBlank c = false ∧
      (cutToken c rest).1 = token ∧ commentTokens (cutToken c rest).2 = later := by
  rw [commentTokens_eq] at h
  split at h
  case h_1 => cases h
  case h_2 c rest hdrop =>
    obtain ⟨htoken, hlater⟩ := List.cons.inj h
    have hblank : isBlank c = false := by
      have hhead := List.head?_dropWhile_not isBlank comment
      rw [← dropBlanks, hdrop] at hhead
      simpa using hhead
    exact ⟨c, rest, hdrop, hblank, htoken, hlater⟩

/-- A run of characters up to a blank holds none. -/
theorem isBlank_of_mem_takeWhile {d : Char} (h : d ∈ text.takeWhile (!isBlank ·)) :
    isBlank d = false := by
  simpa using List.all_eq_true.mp List.all_takeWhile d h

/-- What an unclosed quote starts has no closing quote further in front. -/
theorem cutQuoted?_eq_none_of_append {front : List Char}
    (h : cutQuoted? (front ++ rest) = none) : cutQuoted? front = none := by
  cases hcut : cutQuoted? front with
  | none => rfl
  | some parts =>
      obtain ⟨body, tail⟩ := parts
      have hbody := quotedBody_of_cutQuoted? hcut
      rw [← append_of_cutQuoted? hcut, List.append_assoc, hbody.cutQuoted?_append] at h
      cases h

/-- What is cut off at a character that is not blank: a closed token, or an open one up to the next
blank. -/
theorem cutToken_cases (hc : isBlank c = false) (rest : List Char) :
    IsClosed (cutToken c rest).1 ∨
      IsOpen (cutToken c rest).1 ∧ cutQuoted? rest = none ∧
        (cutToken c rest).2 = rest.dropWhile (!isBlank ·) := by
  rw [cutToken]
  split
  case h_1 body tail hcut =>
    split at hcut
    case isTrue hquote =>
      subst hquote
      exact .inl (.quoted (quotedBody_of_cutQuoted? hcut))
    case isFalse => cases hcut
  case h_2 hcut =>
    have hrun : ∀ d ∈ rest.takeWhile (!isBlank ·), isBlank d = false :=
      fun _ => isBlank_of_mem_takeWhile
    by_cases hquote : c = '"'
    · subst hquote
      rw [if_pos rfl] at hcut
      have hnone : cutQuoted? (rest.takeWhile (!isBlank ·)) = none := by
        rw [← List.takeWhile_append_dropWhile (p := (!isBlank ·)) (l := rest)] at hcut
        exact cutQuoted?_eq_none_of_append hcut
      exact .inr ⟨.unclosed hnone hrun, hcut, rfl⟩
    · exact .inl (.bare hquote (List.forall_mem_cons.mpr ⟨hc, hrun⟩))

/-- **The first token** of a comment is closed or open. -/
theorem isClosed_or_isOpen {comment : List Char} {later : List (List Char)}
    (h : commentTokens comment = token :: later) : IsClosed token ∨ IsOpen token := by
  obtain ⟨c, rest, -, hblank, rfl, -⟩ := exists_cutToken h
  exact (cutToken_cases hblank rest).imp_right And.left

/-- A token with a payload starts with the quote that starts its text. -/
theorem eq_quote_of_unquote? {payload : List Char}
    (h : unquote? (cutToken c rest).1 = some payload) : c = '"' := by
  refine Decidable.byContradiction fun hquote => ?_
  rw [cutToken, if_neg hquote, unquote?_of_ne hquote] at h
  cases h

/-- On one line, a quoted string is closed by a quote behind a run of characters and blanks: the
blanks keep every backslash away from it. -/
theorem isSome_cutQuoted?_of_dropBlanks {more : List Char} (hline : '\n' ∉ rest)
    (h : dropBlanks (rest.dropWhile (!isBlank ·)) = '"' :: more) : (cutQuoted? rest).isSome := by
  obtain ⟨run, hrun⟩ : ∃ run, run = rest.takeWhile (!isBlank ·) := ⟨_, rfl⟩
  obtain ⟨gap, hgap⟩ : ∃ gap, gap = (rest.dropWhile (!isBlank ·)).takeWhile isBlank := ⟨_, rfl⟩
  have hsplit : rest = (run ++ gap) ++ '"' :: more := by
    rw [← h, hrun, hgap, List.append_assoc, dropBlanks, List.takeWhile_append_dropWhile,
      List.takeWhile_append_dropWhile]
  have hne : gap ≠ [] := by
    rintro rfl
    have hhead := List.head?_dropWhile_not (!isBlank ·) rest
    rw [← List.takeWhile_append_dropWhile (p := isBlank) (l := rest.dropWhile (!isBlank ·)), ← hgap,
      ← dropBlanks, h] at hhead
    cases hhead
  have hfront : '\n' ∉ run ++ gap := by
    rw [hsplit, List.mem_append, not_or] at hline
    exact hline.1
  have hlast : (run ++ gap).getLast? ≠ some '\\' := by
    have hblanks : ∀ e ∈ gap, isBlank e = true := by
      rw [hgap]
      exact List.all_eq_true.mp List.all_takeWhile
    have hblank := hblanks _ (List.getLast_mem hne)
    rw [List.getLast?_append, List.getLast?_eq_some_getLast hne, Option.some_or]
    intro hslash
    rw [Option.some.inj hslash] at hblank
    cases hblank
  rw [hsplit]
  exact isSome_cutQuoted? hfront hlast more

/-- **No quoted string follows an open token** on one line: its opening quote would close the
token. -/
theorem isClosed_of_unquote? {comment key payload : List Char} {later : List (List Char)}
    (hline : '\n' ∉ comment) (h : commentTokens comment = token :: key :: later)
    (hkey : unquote? key = some payload) : IsClosed token := by
  obtain ⟨c, rest, hdrop, hc, rfl, hlater⟩ := exists_cutToken h
  refine (cutToken_cases hc rest).resolve_right ?_
  rintro ⟨-, hcut, htail⟩
  obtain ⟨d, more, hdrop', -, rfl, -⟩ := exists_cutToken hlater
  obtain rfl : d = '"' := eq_quote_of_unquote? hkey
  rw [htail] at hdrop'
  have hrest : '\n' ∉ rest := by
    intro hbreak
    have hdropped : '\n' ∈ dropBlanks comment := hdrop ▸ List.mem_cons_of_mem c hbreak
    exact hline ((List.dropWhile_sublist _).subset hdropped)
  have hsome := isSome_cutQuoted?_of_dropBlanks hrest hdrop'
  rw [hcut] at hsome
  cases hsome

/-! ## Characters of tokens -/

/-- Nothing is lost when a token is cut off. -/
theorem append_cutToken (c : Char) (rest : List Char) :
    (cutToken c rest).1 ++ (cutToken c rest).2 = c :: rest := by
  rw [cutToken]
  split
  case h_1 body tail hcut =>
    split at hcut
    case isTrue => exact congrArg (c :: ·) (append_of_cutQuoted? hcut)
    case isFalse => cases hcut
  case h_2 => exact congrArg (c :: ·) List.takeWhile_append_dropWhile

/-- **The tokens of a comment hold its characters only.** -/
theorem mem_of_mem_commentTokens {comment : List Char} :
    ∀ token ∈ commentTokens comment, ∀ c ∈ token, c ∈ comment := by
  fun_induction commentTokens comment with
  | case1 => exact List.forall_mem_nil _
  | case2 comment first rest hdrop _ ih =>
      have hsplit {d : Char} (hd : d ∈ (cutToken first rest).1 ++ (cutToken first rest).2) :
          d ∈ comment := by
        rw [append_cutToken, ← hdrop] at hd
        exact (List.dropWhile_sublist _).subset hd
      rw [List.forall_mem_cons]
      exact ⟨fun c hc => hsplit (List.mem_append_left _ hc),
        fun token htoken c hc => hsplit (List.mem_append_right _ (ih token htoken c hc))⟩

/-- What is left of a text without its escaping backslashes was in it. -/
theorem mem_of_mem_unescape (h : c ∈ unescape text) : c ∈ text := by
  fun_induction unescape text <;> grind

/-- The payload of a token holds characters of the token only. -/
theorem mem_of_unquote? {payload : List Char} (h : unquote? token = some payload)
    (hc : c ∈ payload) : c ∈ token := by
  unfold unquote? at h
  split at h
  case h_1 inner =>
    split at h
    case isTrue =>
      cases h
      exact List.mem_cons_of_mem _ ((List.dropLast_sublist _).subset (mem_of_mem_unescape hc))
    case isFalse => cases h
  case h_2 => cases h

/-! ## Comments of one and two tokens -/

/-- A first token alone: it is read back, and has no blank at its ends. -/
theorem commentTokens_first {comment first : List Char} {later : List (List Char)}
    (h : commentTokens comment = first :: later) : commentTokens first = [first] ∧ Solid first := by
  rcases isClosed_or_isOpen h with hclosed | hopen
  · exact ⟨hclosed.commentTokens_eq, hclosed.solid⟩
  · exact ⟨hopen.commentTokens_eq, hopen.solid⟩

/-- A quoted payload alone. -/
theorem commentTokens_quoteToken (payload : List Char) :
    commentTokens (quoteToken payload) = [quoteToken payload] :=
  (isClosed_quoteToken payload).commentTokens_eq

/-- A closed token with a quoted payload behind it. -/
theorem IsClosed.commentTokens_append_quoteToken {table : List Char} (h : IsClosed table)
    (payload : List Char) :
    commentTokens (table ++ ' ' :: quoteToken payload) = [table, quoteToken payload] := by
  rw [h.commentTokens_append (forall_head?_cons (by decide)),
    commentTokens_cons_of_isBlank (by decide), commentTokens_quoteToken]

/-- A closed token with a quoted payload behind it has no blank at its ends. -/
theorem IsClosed.solid_append_quoteToken {table : List Char} (h : IsClosed table)
    (payload : List Char) : Solid (table ++ ' ' :: quoteToken payload) := by
  have hquoted := isClosed_quoteToken payload
  have hsolid := h.solid.append hquoted.solid h.ne_nil hquoted.ne_nil [' ']
  rwa [List.append_assoc] at hsolid

/-- The characters of a quoted payload. -/
theorem forall_mem_quoteToken {motive : Char → Prop} (hquote : motive '"') (hslash : motive '\\')
    {payload : List Char} (h : ∀ c ∈ payload, motive c) : ∀ c ∈ quoteToken payload, motive c := by
  intro c hc
  simp only [quoteToken, escapePayload, List.cons_append, List.mem_cons, List.mem_append,
    List.mem_flatMap, List.not_mem_nil, or_false] at hc
  rcases hc with rfl | ⟨d, hd, hc⟩ | rfl
  · exact hquote
  · split at hc
    case isTrue =>
      rcases List.mem_cons.mp hc with rfl | hc
      · exact hslash
      · exact List.mem_singleton.mp hc ▸ h d hd
    case isFalse => exact List.mem_singleton.mp hc ▸ h d hd
  · exact hquote

end LuaGlobals
