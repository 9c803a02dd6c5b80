/-!
# Positions in a text

A cursor stands in a text in front of the characters that are left, and knows the line and the
column it has come to. Line ends are newlines, next-line marks and the separators of lines and
paragraphs.
-/

namespace ParenLint.Yaml

/-- Stands for the end of the text. No text holds it. -/
def endMark : Char := '\x00'

/-- Whether `c` ends a line. -/
def isBreak (c : Char) : Bool := c = '\n' ∨ c = '\x85' ∨ c = '\u2028' ∨ c = '\u2029'

/-- Whether `c` ends a line or the text. -/
def isBreakOrEnd (c : Char) : Bool := isBreak c || c = endMark

/-- Whether `c` is a space or ends a line or the text. -/
def isSpaceOrEnd (c : Char) : Bool := c = ' ' || isBreakOrEnd c

/-- Whether `c` is a space or a tab or ends a line or the text. -/
def isGapOrEnd (c : Char) : Bool := c = '\t' || isSpaceOrEnd c

/-- Whether `c` may stand in a name: ASCII letters, digits, hyphens and underscores. -/
def isNameChar (c : Char) : Bool := c.isAlphanum || c = '-' || c = '_'

/-- Whether `c` is a hexadecimal digit. -/
def isHexDigit (c : Char) : Bool :=
  c.isDigit || ('a' ≤ c && c ≤ 'f') || ('A' ≤ c && c ≤ 'F')

/-- The mark that may stand at the beginning of a text to tell the order of its bytes. -/
def byteOrderMark : Char := '\ufeff'

/-- A position in a text. -/
structure Cursor where
  /-- The characters that are left. -/
  rest : List Char
  /-- The number of characters before. -/
  index : Nat
  line : Nat
  column : Nat
  deriving Repr, Inhabited

namespace Cursor

/-- The beginning of a text. -/
def start (cs : List Char) : Cursor := ⟨cs, 0, 0, 0⟩

/-- The character `k` places ahead. -/
def peekAt (c : Cursor) (k : Nat) : Char := (c.rest.drop k).headD endMark

/-- The next character. -/
def peek (c : Cursor) : Char := c.rest.headD endMark

/-- Go on by one character. -/
def next (c : Cursor) : Cursor :=
  match c.rest with
  | [] => c
  | x :: rest =>
    if isBreak x then ⟨rest, c.index + 1, c.line + 1, 0⟩
    else ⟨rest, c.index + 1, c.line, if x = byteOrderMark then c.column else c.column + 1⟩

/-- Go on by `n` characters. -/
def advance (c : Cursor) (n : Nat) : Cursor := n.repeat next c

/-- The characters ahead that satisfy `p`, and the position behind them. -/
def takeWhile (c : Cursor) (p : Char → Bool) : List Char × Cursor :=
  let run := c.rest.takeWhile p
  (run, c.advance run.length)

/-- The position behind the characters ahead that satisfy `p`. -/
def skipWhile (c : Cursor) (p : Char → Bool) : Cursor := (c.takeWhile p).2

/-- The position behind spaces. -/
def skipSpaces (c : Cursor) : Cursor := c.skipWhile (· = ' ')

/-- The position behind the rest of the line. -/
def skipLine (c : Cursor) : Cursor := c.skipWhile fun x => !isBreak x

/-- The position behind spaces of which none is at or behind a column. -/
def skipSpacesTo (c : Cursor) (column : Nat) : Cursor :=
  c.advance (min (column - c.column) (c.rest.takeWhile (· = ' ')).length)

/-- The line end ahead, as it counts in a scalar, and the position behind it. -/
def lineBreak (c : Cursor) : List Char × Cursor :=
  let x := c.peek
  if x = '\n' ∨ x = '\x85' then (['\n'], c.next)
  else if x = '\u2028' ∨ x = '\u2029' then ([x], c.next)
  else ([], c)

/-- Whether a line ahead consists of the three characters and what may follow them. -/
def atMarker (c : Cursor) (mark : Char) : Bool :=
  c.rest.take 3 == [mark, mark, mark] && isGapOrEnd (c.peekAt 3)

/-- Whether the text ahead separates documents. -/
def atSeparator (c : Cursor) : Bool := c.atMarker '-' || c.atMarker '.'

end Cursor

end ParenLint.Yaml
