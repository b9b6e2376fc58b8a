import LuaGlobals.Proofs.Instruction.Comment
import LuaGlobals.Proofs.Instruction.Field

/-! # Joined comments

A comment that was put together from tokens, with blanks between them, falls into these tokens
again. What a quoted payload holds does not matter: its quotes and backslashes are escaped, and
blanks and line breaks are part of the token.

* `BareWord` and `CommentToken` are the parts of such a comment, and `joinTokens` puts them together
  with gaps of one or more blanks.
* **`joinTokens_roundtrip`**: the tokens and their payloads are read back. -/

namespace LuaGlobals

open Text

/-! ## Parts of a comment -/

/-- A word that is taken for itself: it has characters, none of which is blank, and starts with no
quote. -/
structure BareWord where
  /-- The characters. -/
  text : List Char
  /-- There are some. -/
  ne_nil : text ≠ []
  /-- The first one is no quote. -/
  unquoted : text.head? ≠ some '"'
  /-- None of them is blank. -/
  unbroken : ∀ c ∈ text, isBlank c = false

/-- A token of a comment. -/
inductive CommentToken where
  /-- A quoted string with any payload. -/
  | quoted (payload : List Char)
  /-- A word. -/
  | bare (word : BareWord)

namespace CommentToken

/-- How a token is spelled. -/
def spell : CommentToken → List Char
  | .quoted payload => quoteToken payload
  | .bare word => word.text

/-- The payload of a quoted string; a word has none. -/
def payload? : CommentToken → Option (List Char)
  | .quoted payload => some payload
  | .bare _ => none

/-- Each token ends by itself. -/
theorem isClosed_spell (token : CommentToken) : IsClosed token.spell := by
  cases token with
  | quoted payload => exact isClosed_quoteToken payload
  | bare word =>
      obtain ⟨text, hne, hquote, hblank⟩ := word
      obtain ⟨c, rest, rfl⟩ := List.exists_cons_of_ne_nil hne
      exact .bare (fun heq => hquote (congrArg some heq)) hblank

/-- **The payload of a token is read off its spelling.** -/
theorem unquote?_spell (token : CommentToken) : unquote? token.spell = token.payload? := by
  cases token with
  | quoted payload => exact unquote?_quoteToken payload
  | bare word =>
      obtain ⟨text, hne, hquote, -⟩ := word
      obtain ⟨c, rest, rfl⟩ := List.exists_cons_of_ne_nil hne
      exact unquote?_of_ne (fun heq => hquote (congrArg some heq)) rest

end CommentToken

/-- The comment with given tokens, where the gap with the number of a token follows it. -/
def joinTokens (gap : Nat → Gap) : List CommentToken → List Char
  | [] => []
  | [token] => token.spell
  | token :: next :: rest =>
    token.spell ++ ((gap 0).chars ++ joinTokens (fun place => gap (place + 1)) (next :: rest))

/-! ## Reading tokens back -/

/-- Blanks in front of a comment do not matter. -/
theorem commentTokens_append_of_isBlank {blanks : List Char}
    (h : ∀ c ∈ blanks, isBlank c = true) (comment : List Char) :
    commentTokens (blanks ++ comment) = commentTokens comment := by
  induction blanks with
  | nil => rfl
  | cons c blanks ih =>
      obtain ⟨hc, hblanks⟩ := List.forall_mem_cons.mp h
      rw [List.cons_append, commentTokens_cons_of_isBlank hc, ih hblanks]

/-- A joined comment falls into its tokens. -/
theorem commentTokens_joinTokens (gap : Nat → Gap) (tokens : List CommentToken) :
    commentTokens (joinTokens gap tokens) = tokens.map CommentToken.spell := by
  fun_induction joinTokens gap tokens with
  | case1 => exact commentTokens_nil
  | case2 _ token => exact token.isClosed_spell.commentTokens_eq
  | case3 gap token next rest ih =>
      -- The first gap starts with a blank, so the first token ends before it.
      have hstop := (gap 0).forall_head? (fun _ hblank => hblank)
        (joinTokens (fun place => gap (place + 1)) (next :: rest))
      rw [token.isClosed_spell.commentTokens_append hstop,
        commentTokens_append_of_isBlank (gap 0).blank, ih]
      rfl

/-- **Tokenizing undoes joining.** Tokens that are joined by any gaps are read back in their order,
and of each quoted string its payload, whatever that holds. -/
theorem joinTokens_roundtrip (gap : Nat → Gap) (tokens : List CommentToken) :
    commentTokens (joinTokens gap tokens) = tokens.map CommentToken.spell
      ∧ (commentTokens (joinTokens gap tokens)).map unquote?
        = tokens.map CommentToken.payload? := by
  refine ⟨commentTokens_joinTokens gap tokens, ?_⟩
  rw [commentTokens_joinTokens, List.map_map]
  exact List.map_congr_left fun token _ => token.unquote?_spell

/-- Quotes, backslashes and line breaks of a payload end no token. -/
example :
    let word : BareWord := ⟨['x', '"'], by decide, by decide,
      List.forall_mem_cons.mpr ⟨by decide, List.forall_mem_singleton.mpr (by decide)⟩⟩
    let tokens : List CommentToken := [.quoted "a\" \\".toList, .bare word, .quoted "\n\\".toList]
    commentTokens (joinTokens (fun _ => .tab) tokens)
      = ["\"a\\\" \\\\\"".toList, "x\"".toList, "\"\n\\\\\"".toList] := by
  cbv

end LuaGlobals
