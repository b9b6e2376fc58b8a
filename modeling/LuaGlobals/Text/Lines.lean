/-! # Lines of a text

* `splitLines` cuts a text at every line break, of which Unicode knows ten kinds; a carriage
  return followed by a line feed is one break, and a final break opens no further line.
* `joinLines` ends each line with a line feed.
* `dropLineEnd` cuts the carriage returns and line feeds off the end of a line.
* `unifyLineBreaks` makes a line feed of each carriage return, alone or before a line feed.
-/

namespace LuaGlobals.Text

/-- Whether a character ends a line. -/
def isLineBreak (c : Char) : Bool :=
  let code := c.toNat
  (0x0A ≤ code && code ≤ 0x0D) || (0x1C ≤ code && code ≤ 0x1E) || code == 0x85
    || code == 0x2028 || code == 0x2029

/-- The first line of a text and what follows its line break. -/
def cutLine : List Char → List Char × List Char
  | [] => ([], [])
  | '\r' :: '\n' :: rest => ([], rest)
  | c :: rest =>
    if isLineBreak c then ([], rest)
    else
      let (line, rest) := cutLine rest
      (c :: line, rest)

/-- What follows the first line is shorter than the text. -/
theorem cutLine_rest_length {text : List Char} (h : text ≠ []) :
    (cutLine text).2.length < text.length := by
  fun_induction cutLine text with
  | case1 => exact absurd rfl h
  | case2 rest => simp only [List.length_cons]; omega
  | case3 c rest _ _ => simp
  | case4 c rest _ _ line after hcut ih =>
    by_cases hr : rest = []
    · subst hr; simp_all [cutLine]
    · have := ih hr
      simp_all
      omega

/-- The lines of a text, without their line breaks. -/
def splitLines (text : List Char) : List (List Char) :=
  if text = [] then []
  else (cutLine text).1 :: splitLines (cutLine text).2
termination_by text.length
decreasing_by exact cutLine_rest_length (by assumption)

/-- A text of lines, each with a line feed at its end. -/
def joinLines (lines : List (List Char)) : List Char :=
  lines.flatMap (· ++ ['\n'])

/-- The line without the carriage returns and line feeds at its end. -/
def dropLineEnd (line : List Char) : List Char :=
  (line.reverse.dropWhile fun c => c == '\r' || c == '\n').reverse

/-- The text with every carriage return, alone or before a line feed, read as a line feed. -/
def unifyLineBreaks : List Char → List Char
  | [] => []
  | '\r' :: '\n' :: rest => '\n' :: unifyLineBreaks rest
  | c :: rest => (if c = '\r' then '\n' else c) :: unifyLineBreaks rest

end LuaGlobals.Text
