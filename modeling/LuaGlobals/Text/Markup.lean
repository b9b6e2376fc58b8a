/-! # Escaping console markup

The console reads a bracket tag such as `[red]` in a message as markup unless a backslash stands
before it. Foreign text is escaped before it enters a message.

* `startsTag` recognises what follows the opening bracket of a tag.
* `escapeMarkup` doubles the backslashes in front of each tag and adds one more, and adds one to
  a single backslash at the end, where it would otherwise escape what is appended.
-/

namespace LuaGlobals.Text

/-- Whether a character can follow the opening bracket of a tag. -/
def isTagStart (c : Char) : Bool :=
  ('a' ≤ c && c ≤ 'z') || c == '#' || c == '/' || c == '@'

/-- Whether the text after an opening bracket makes it a tag: a closing bracket follows before
any further opening one. -/
def startsTag : List Char → Bool
  | [] => false
  | c :: rest =>
    isTagStart c && (rest.dropWhile fun d => d != '[' && d != ']').head? == some ']'

/-- Escapes every tag; `backslashes` counts the backslashes right before the text. -/
def escapeTags (backslashes : Nat) : List Char → List Char
  | [] => []
  | c :: rest =>
    if c = '\\' then c :: escapeTags (backslashes + 1) rest
    else if c = '[' ∧ startsTag rest then
      List.replicate (backslashes + 1) '\\' ++ c :: escapeTags 0 rest
    else c :: escapeTags 0 rest

/-- Whether a text ends with one backslash that no other backslash precedes. -/
def endsInLoneBackslash (text : List Char) : Bool :=
  match text.reverse with
  | '\\' :: '\\' :: _ => false
  | '\\' :: _ => true
  | _ => false

/-- The text with every bracket tag in it escaped. -/
def escapeMarkup (text : List Char) : List Char :=
  let escaped := escapeTags 0 text
  if endsInLoneBackslash escaped then escaped ++ ['\\'] else escaped

/-- `escapeMarkup` on strings. -/
def escapeMarkupString (text : String) : String :=
  String.ofList (escapeMarkup text.toList)

end LuaGlobals.Text
