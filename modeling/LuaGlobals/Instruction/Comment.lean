import LuaGlobals.Text.Blank

/-! # Comments of instruction lines

The text after the semicolon of an instruction line is a row of tokens. A token is a quoted
string, which may hold blanks, or a run of characters without blanks.

* `commentTokens comment` lists the tokens.
* `unquote? token` is the payload of a quoted token.
* `quoteToken payload` is the quoted token with a given payload.
-/

namespace LuaGlobals

open Text

/-- Splits a text that starts inside a quoted string after the closing quote. There is none when
the text ends first, and none past a backslash at the end of a line. -/
def cutQuoted? : List Char → Option (List Char × List Char)
  | [] => none
  | ['\\'] => none
  | '\\' :: c :: rest =>
    if c = '\n' then none
    else (cutQuoted? rest).map fun (body, rest) => ('\\' :: c :: body, rest)
  | '"' :: rest => some (['"'], rest)
  | c :: rest => (cutQuoted? rest).map fun (body, rest) => (c :: body, rest)

/-- Nothing is lost when a quoted string is cut off. -/
theorem append_of_cutQuoted? {text body rest : List Char}
    (h : cutQuoted? text = some (body, rest)) :
    body ++ rest = text := by
  fun_induction cutQuoted? text generalizing body rest with
  | case1 => simp at h
  | case2 => simp at h
  | case3 rest' => simp at h
  | case4 c rest' _ ih =>
    simp only [Option.map_eq_some_iff, Prod.exists, Prod.mk.injEq] at h
    obtain ⟨body', tail, hcut, rfl, rfl⟩ := h
    simp [ih hcut]
  | case5 rest' =>
    simp only [Option.some.injEq, Prod.mk.injEq] at h
    simp [← h.1, ← h.2]
  | case6 c rest' _ _ _ ih =>
    simp only [Option.map_eq_some_iff, Prod.exists, Prod.mk.injEq] at h
    obtain ⟨body', tail, hcut, rfl, rfl⟩ := h
    simp [ih hcut]

/-- The token at the head of a text that starts with the character `c`, and what follows. -/
def cutToken (c : Char) (rest : List Char) : List Char × List Char :=
  match if c = '"' then cutQuoted? rest else none with
  | some (body, rest) => (c :: body, rest)
  | none => (c :: rest.takeWhile (!isBlank ·), rest.dropWhile (!isBlank ·))

/-- What follows a token is no longer than what followed its first character. -/
theorem cutToken_rest_length (c : Char) (rest : List Char) :
    (cutToken c rest).2.length ≤ rest.length := by
  unfold cutToken
  split
  · rename_i body tail h
    split at h
    · have := congrArg List.length (append_of_cutQuoted? h)
      simp only [List.length_append] at this
      dsimp only
      omega
    · simp at h
  · exact (List.dropWhile_sublist _).length_le

/-- The tokens of a comment, in order. -/
def commentTokens (comment : List Char) : List (List Char) :=
  match h : dropBlanks comment with
  | [] => []
  | c :: rest =>
    have : (cutToken c rest).2.length < comment.length := by
      have hcut := cutToken_rest_length c rest
      have hdrop : (dropBlanks comment).length ≤ comment.length :=
        (List.dropWhile_sublist _).length_le
      rw [h] at hdrop
      simp only [List.length_cons] at hdrop
      omega
    (cutToken c rest).1 :: commentTokens (cutToken c rest).2
termination_by comment.length

/-- Drops every backslash that escapes a character. A backslash at the end of a line or of the
text escapes nothing and stays. -/
def unescape : List Char → List Char
  | [] => []
  | '\\' :: c :: rest => if c = '\n' then '\\' :: c :: unescape rest else c :: unescape rest
  | c :: rest => c :: unescape rest

/-- The payload of a quoted token, and `none` for every other token. -/
def unquote? (token : List Char) : Option (List Char) :=
  match token with
  | '"' :: rest => if rest.getLast? = some '"' then some (unescape rest.dropLast) else none
  | _ => none

/-- A payload with a backslash before each backslash and double quote. -/
def escapePayload (payload : List Char) : List Char :=
  payload.flatMap fun c => if c = '"' ∨ c = '\\' then ['\\', c] else [c]

/-- The quoted token with a given payload. -/
def quoteToken (payload : List Char) : List Char :=
  '"' :: escapePayload payload ++ ['"']

end LuaGlobals
