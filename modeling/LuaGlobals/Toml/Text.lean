import LuaGlobals.Json.Reader

/-! # TOML strings

TOML has basic strings, with escapes between double quotes, and literal strings, without escapes
between single quotes. Three quotes enclose strings that may run over several lines.

* `readString?` reads a string of any of the four kinds.
-/

namespace LuaGlobals.Toml

/-- Whether a character is a blank inside a line. -/
def isGap (c : Char) : Bool :=
  c == ' ' || c == '\t'

/-- Whether a character is a blank or ends a line. -/
def isGapOrLineEnd (c : Char) : Bool :=
  isGap c || c == '\n'

/-- The text without the blanks in front. -/
def dropGap (text : List Char) : List Char :=
  text.dropWhile isGap

/-- Whether a character may stand in a comment and in a string on one line: no control character
but the tab. -/
def isLineChar (c : Char) : Bool :=
  c == '\t' || (0x20 ≤ c.toNat && c != '\x7F')

/-- Whether a character may stand in a string; a line end only in one over several lines. -/
def isStringChar (multiline : Bool) (c : Char) : Bool :=
  isLineChar c || (multiline && c == '\n')

/-! ## Escapes -/

/-- The character with a code point; surrogates have none. -/
def scalar? (code : Nat) : Option Char :=
  if code < 0xD800 ∨ (0xDFFF < code ∧ code < 0x110000) then some (Char.ofNat code) else none

/-- Reads the code point of a character in a given number of hexadecimal digits. -/
def readCode? (digits : Nat) (text : List Char) : Option (List Char × List Char) := do
  let (code, rest) ← Json.readHex? digits text
  let c ← scalar? code
  return ([c], rest)

/-- Reads what follows the backslash of an escape. -/
def readEscape? (text : List Char) : Option (List Char × List Char) :=
  match text with
  | 'b' :: rest => some (['\x08'], rest)
  | 't' :: rest => some (['\t'], rest)
  | 'n' :: rest => some (['\n'], rest)
  | 'f' :: rest => some (['\x0C'], rest)
  | 'r' :: rest => some (['\r'], rest)
  | '"' :: rest => some (['"'], rest)
  | '\\' :: rest => some (['\\'], rest)
  | 'u' :: rest => readCode? 4 rest
  | 'U' :: rest => readCode? 8 rest
  | _ => none

/-- Reads what follows the backslash of an escape in a string over several lines, where a
backslash at the end of a line swallows the line end and all blanks after it. -/
def readMultilineEscape? (text : List Char) : Option (List Char × List Char) :=
  match text with
  | c :: _ =>
    if isGapOrLineEnd c then
      match dropGap text with
      | '\n' :: rest => some ([], rest.dropWhile isGapOrLineEnd)
      | _ => none
    else readEscape? text
  | [] => none

/-! ## Strings -/

/-- Reads a basic string behind its opening quotes; the first argument bounds its length. -/
def readBasic? (multiline : Bool) : Nat → List Char → Option (List Char × List Char)
  | 0, _ => none
  | _ + 1, [] => none
  | fuel + 1, c :: rest =>
    if c = '\\' then do
      let (escaped, rest) ← if multiline then readMultilineEscape? rest else readEscape? rest
      let (body, rest) ← readBasic? multiline fuel rest
      return (escaped ++ body, rest)
    else if c = '"' ∧ ¬multiline then some ([], rest)
    else
      -- Fewer than three quotes in a row belong to a string over several lines.
      match c, rest with
      | '"', '"' :: '"' :: rest => some ([], rest)
      | _, _ =>
        if isStringChar multiline c then
          (readBasic? multiline fuel rest).map fun (body, rest) => (c :: body, rest)
        else none

/-- Reads a literal string behind its opening quotes. -/
def readLiteral? (multiline : Bool) : List Char → Option (List Char × List Char)
  | [] => none
  | '\'' :: rest =>
    if multiline then
      match rest with
      | '\'' :: '\'' :: rest => some ([], rest)
      | _ => (readLiteral? multiline rest).map fun (body, rest) => ('\'' :: body, rest)
    else some ([], rest)
  | c :: rest =>
    if isStringChar multiline c then
      (readLiteral? multiline rest).map fun (body, rest) => (c :: body, rest)
    else none

/-- Reads at most two more quotes behind the closing ones; they belong to the string. -/
def readExtraQuotes (mark : Char) (body text : List Char) : String × List Char :=
  let extra := (text.take 2).takeWhile (· == mark)
  (String.ofList (body ++ extra), text.drop extra.length)

/-- The text behind a line end in front. -/
def dropLineEnd (text : List Char) : List Char :=
  match text with
  | '\n' :: rest => rest
  | _ => text

/-- Reads a string on one line. -/
def readLineString? (text : List Char) : Option (String × List Char) :=
  match text with
  | '"' :: rest =>
    (readBasic? false (rest.length + 1) rest).map fun (body, rest) => (String.ofList body, rest)
  | '\'' :: rest => (readLiteral? false rest).map fun (body, rest) => (String.ofList body, rest)
  | _ => none

/-- Reads a string. -/
def readString? (text : List Char) : Option (String × List Char) :=
  match text with
  | '"' :: '"' :: '"' :: rest =>
    let start := dropLineEnd rest
    (readBasic? true (start.length + 1) start).map fun (body, rest) =>
      readExtraQuotes '"' body rest
  | '\'' :: '\'' :: '\'' :: rest =>
    (readLiteral? true (dropLineEnd rest)).map fun (body, rest) => readExtraQuotes '\'' body rest
  | _ => readLineString? text

end LuaGlobals.Toml
