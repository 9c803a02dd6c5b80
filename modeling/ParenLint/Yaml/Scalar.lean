import ParenLint.Yaml.Cursor
import ParenLint.Yaml.Fault

/-!
# Texts of scalars

A scalar is written plainly, between quotes, or as a block of lines. In each form line ends within
the text are folded: a single one becomes a space, and of several the first is left out. Only a
literal block keeps them.
-/

namespace ParenLint.Yaml

open Cursor

/-- The text that stands for a line end and the line ends after it, when it is folded. -/
def foldBreaks (first : List Char) (more : List Char) : List Char :=
  if first ≠ ['\n'] then first ++ more else if more.isEmpty then [' '] else more

/-! ### Plain scalars -/

/-- The number of characters that a plain scalar takes from the text ahead without a gap. -/
def plainLength (inFlow : Bool) : List Char → Nat
  | [] => 0
  | c :: rest =>
    let next := rest.headD endMark
    if isGapOrEnd c then 0
    else if c = ':' && (isGapOrEnd next || (inFlow && ",[]\x7b\x7d".contains next)) then 0
    else if inFlow && ",?[]\x7b\x7d".contains c then 0
    else plainLength inFlow rest + 1

/-- The line ends after the first in a gap of a plain scalar. The gap is given up where a line
separates documents. -/
def plainBreaks (fuel : Nat) (breaks : List Char) (c : Cursor) : Option (List Char) × Cursor :=
  match fuel with
  | 0 => (some breaks, c)
  | fuel + 1 =>
    if c.peek = ' ' then plainBreaks fuel breaks c.next
    else
      match c.lineBreak with
      | ([], _) => (some breaks, c)
      | (b, c) => if c.atSeparator then (none, c) else plainBreaks fuel (breaks ++ b) c

/-- A gap in a plain scalar: what it stands for, whether it holds a line end, and the position
behind it. Where the scalar cannot go on, the gap stands for nothing. -/
def plainGap (c : Cursor) : List Char × Bool × Cursor :=
  let (spaces, c) := c.takeWhile (· = ' ')
  match c.lineBreak with
  | ([], _) => (spaces, false, c)
  | (first, c) =>
    if c.atSeparator then ([], true, c)
    else
      match plainBreaks (c.rest.length + 1) [] c with
      | (none, c) => ([], true, c)
      | (some more, c) => (foldBreaks first more, true, c)

/-- The rest of a plain scalar after a gap. The result tells whether the last gap holds a line
end. -/
def plainFrom (fuel : Nat) (indent : Int) (inFlow : Bool) (gap : List Char) (broken : Bool)
    (c : Cursor) : List Char × Bool × Cursor :=
  match fuel with
  | 0 => ([], broken, c)
  | fuel + 1 =>
    let n := if c.peek = '#' then 0 else plainLength inFlow c.rest
    if n = 0 then ([], broken, c)
    else
      let piece := gap ++ c.rest.take n
      let (gap, broken, c) := plainGap (c.advance n)
      if gap.isEmpty || c.peek = '#' || (!inFlow && decide ((c.column : Int) < indent)) then
        (piece, broken, c)
      else
        let (more, broken, c) := plainFrom fuel indent inFlow gap broken c
        (piece ++ more, broken, c)

/-- A plain scalar, whose lines are indented by `indent` at least. -/
def plainScalar (indent : Int) (inFlow : Bool) (c : Cursor) : List Char × Bool × Cursor :=
  plainFrom (c.rest.length + 1) indent inFlow [] false c

/-! ### Scalars between quotes -/

/-- What a letter stands for behind a backslash. -/
def escapedChar? (c : Char) : Option Char :=
  match c with
  | '0' => some '\x00'
  | 'a' => some '\x07'
  | 'b' => some '\x08'
  | 't' | '\t' => some '\t'
  | 'n' => some '\n'
  | 'v' => some '\x0b'
  | 'f' => some '\x0c'
  | 'r' => some '\r'
  | 'e' => some '\x1b'
  | ' ' => some ' '
  | '"' => some '"'
  | '\\' => some '\\'
  | '/' => some '/'
  | 'N' => some '\x85'
  | '_' => some '\xa0'
  | 'L' => some '\u2028'
  | 'P' => some '\u2029'
  | _ => none

/-- The number of hexadecimal digits that follow a letter behind a backslash. -/
def escapedDigits (c : Char) : Nat :=
  if c = 'x' then 2 else if c = 'u' then 4 else if c = 'U' then 8 else 0

/-- The value of hexadecimal digits. -/
def hexNumber (ds : List Char) : Nat :=
  ds.foldl (fun n d => 16 * n + (if d.isDigit then d.toNat - 48 else d.toNat % 32 + 9)) 0

/-- Stands for a number that is a code point and no character. -/
def replacementChar : Char := '\ufffd'

/-- The line ends within a quoted scalar. A line that separates documents is not part of one. -/
def quotedBreaks (fuel : Nat) (c : Cursor) : Except Fault (List Char × Cursor) :=
  match fuel with
  | 0 => .error .malformed
  | fuel + 1 =>
    if c.atSeparator then .error .malformed
    else
      let c := c.skipWhile fun x => x = ' ' ∨ x = '\t'
      match c.lineBreak with
      | ([], _) => .ok ([], c)
      | (b, c) => do
        let (more, c) ← quotedBreaks fuel c
        return (b ++ more, c)

/-- The number that an escape ahead writes in hexadecimal digits, and the position behind it. -/
def hexEscape? (c : Cursor) : Option (Nat × Cursor) :=
  let digits := escapedDigits c.peek
  let ds := c.next.rest.take digits
  if digits ≠ 0 ∧ ds.length = digits ∧ ds.all isHexDigit then
    some (hexNumber ds, c.advance (digits + 1))
  else none

/-- The second half of a code point beyond the first plane, if an escape ahead writes one. -/
def lowHalf? (c : Cursor) : Option (Nat × Cursor) :=
  if c.peek = '\\' then
    match hexEscape? c.next with
    | some (low, c) => if 0xDC00 ≤ low ∧ low < 0xE000 then some (low, c) else none
    | none => none
  else none

/-- The character that an escape with the number `n` stands for. The two halves of a code point
beyond the first plane stand for it together. -/
def escapedNumber (n : Nat) (c : Cursor) : Except Fault (List Char × Cursor) :=
  if 0x110000 ≤ n then .error (.noCodePoint n)
  else if n.isValidChar then .ok ([Char.ofNat n], c)
  else
    match lowHalf? c with
    | some (low, behind) =>
      if n < 0xDC00 then
        .ok ([Char.ofNat (0x10000 + (n - 0xD800) * 0x400 + (low - 0xDC00))], behind)
      else .ok ([replacementChar], c)
    | none => .ok ([replacementChar], c)

/-- A character or a line end behind a backslash. -/
def escape (c : Cursor) : Except Fault (List Char × Cursor) :=
  let x := c.peek
  if c.rest.isEmpty then .error .unclosed
  else if isBreak x then quotedBreaks (c.rest.length + 1) c.lineBreak.2
  else
    match escapedChar? x, hexEscape? c with
    | some y, _ => .ok ([y], c.next)
    | none, some (n, c) => escapedNumber n c
    | none, none => .error .malformed

/-- The white space ahead within a quoted scalar. -/
def quotedGap (c : Cursor) : Except Fault (List Char × Cursor) :=
  let (spaces, c) := c.takeWhile fun x => x = ' ' ∨ x = '\t'
  if c.rest.isEmpty then .error .unclosed
  else
    match c.lineBreak with
    | ([], _) => .ok (spaces, c)
    | (first, c) => do
      let (more, c) ← quotedBreaks (c.rest.length + 1) c
      return (foldBreaks first more, c)

/-- The rest of a scalar between quotes. In single quotes a quote is written twice; in double
quotes there are escapes. -/
def quotedRest (fuel : Nat) (quote : Char) (c : Cursor) : Except Fault (List Char × Cursor) :=
  match fuel with
  | 0 => .error .malformed
  | fuel + 1 => do
    let x := c.peek
    if c.rest.isEmpty then throw .unclosed
    else if x = quote then
      if quote = '\'' ∧ c.peekAt 1 = '\'' then
        let (more, c) ← quotedRest fuel quote (c.advance 2)
        return ('\'' :: more, c)
      else return ([], c.next)
    else if x = '\\' ∧ quote = '"' then
      let (piece, c) ← escape c.next
      let (more, c) ← quotedRest fuel quote c
      return (piece ++ more, c)
    else if isGapOrEnd x then
      let (piece, c) ← quotedGap c
      let (more, c) ← quotedRest fuel quote c
      return (piece ++ more, c)
    else
      let (more, c) ← quotedRest fuel quote c.next
      return (x :: more, c)

/-- A scalar between quotes. -/
def quotedScalar (c : Cursor) : Except Fault (List Char × Cursor) :=
  quotedRest (c.rest.length + 1) c.peek c.next

/-! ### Block scalars -/

/-- What becomes of the line ends at the end of a block. -/
inductive Chomping
  /-- None is kept. -/
  | strip
  /-- The first is kept. -/
  | clip
  /-- All are kept. -/
  | keep
  deriving DecidableEq, Repr

/-- The sign of a way of chomping. -/
def chomping? (c : Char) : Option Chomping :=
  if c = '+' then some .keep else if c = '-' then some .strip else none

/-- The digit of an indentation, if there is one. -/
def indentDigit (c : Cursor) : Except Fault (Option Nat × Cursor) :=
  if c.peek = '0' then .error .malformed
  else if c.peek.isDigit then .ok (some (c.peek.toNat - 48), c.next)
  else .ok (none, c)

/-- The way of chomping and the digit of the indentation, in either order, and then nothing on the
line but a comment. -/
def blockHeader (c : Cursor) : Except Fault (Chomping × Option Nat × Cursor) := do
  let (chomping, increment, c) ←
    match chomping? c.peek with
    | some chomping =>
      let (increment, c) ← indentDigit c.next
      pure (chomping, increment, c)
    | none =>
      let (increment, c) ← indentDigit c
      match increment, chomping? c.peek with
      | some _, some chomping => pure (chomping, increment, c.next)
      | _, _ => pure (Chomping.clip, increment, c)
  if !isSpaceOrEnd c.peek then throw .malformed
  let c := c.skipSpaces
  let c := if c.peek = '#' then c.skipLine else c
  if !isBreakOrEnd c.peek then throw .malformed
  return (chomping, increment, c.lineBreak.2)

/-- The line ends before the first line of a block, and the greatest column reached by spaces. -/
def blockIndentation (fuel : Nat) (deepest : Nat) (c : Cursor) : List Char × Nat × Cursor :=
  match fuel with
  | 0 => ([], deepest, c)
  | fuel + 1 =>
    if c.peek = ' ' then
      let c := c.next
      blockIndentation fuel (max deepest c.column) c
    else
      match c.lineBreak with
      | ([], _) => ([], deepest, c)
      | (b, c) =>
        let (more, deepest, c) := blockIndentation fuel deepest c
        (b ++ more, deepest, c)

/-- The line ends ahead in a block, with the indentation of the line after them. -/
def blockBreaks (fuel : Nat) (indent : Nat) (c : Cursor) : List Char × Cursor :=
  let c := c.skipSpacesTo indent
  match fuel with
  | 0 => ([], c)
  | fuel + 1 =>
    match c.lineBreak with
    | ([], _) => ([], c)
    | (b, c) =>
      let (more, c) := blockBreaks fuel indent c
      (b ++ more, c)

/-- The lines of a block, joined, with the line end of the last line and the line ends after it. The
number of characters left bounds both the lines and the line ends. -/
def blockLines (fuel : Nat) (folded : Bool) (indent : Nat) (breaks : List Char) (c : Cursor) :
    List Char × List Char × List Char × Cursor :=
  match fuel with
  | 0 => ([], [], breaks, c)
  | fuel + 1 =>
    if c.column ≠ indent ∨ c.rest.isEmpty then ([], [], breaks, c)
    else
      let isText (x : Char) : Bool := x ≠ ' ' && x ≠ '\t'
      let leading := isText c.peek
      let (line, c) := c.takeWhile fun x => !isBreak x
      let (lineEnd, c) := c.lineBreak
      let (after, c) := blockBreaks fuel indent c
      if c.column ≠ indent ∨ c.rest.isEmpty then (breaks ++ line, lineEnd, after, c)
      else
        let joint :=
          if folded && lineEnd == ['\n'] && leading && isText c.peek then
            (if after.isEmpty then [' '] else [])
          else lineEnd
        let (more, lineEnd, after, c) := blockLines fuel folded indent after c
        (breaks ++ line ++ joint ++ more, lineEnd, after, c)

/-- A block scalar in a collection that is indented by `parent`. -/
def blockScalar (folded : Bool) (parent : Int) (c : Cursor) :
    Except Fault (List Char × Cursor) := do
  let (chomping, increment, c) ← blockHeader c.next
  let least := max 1 (parent + 1).toNat
  let (breaks, indent, c) := match increment with
    | some n =>
      let indent := least + n - 1
      let (breaks, c) := blockBreaks (c.rest.length + 1) indent c
      (breaks, indent, c)
    | none =>
      let (breaks, deepest, c) := blockIndentation (c.rest.length + 1) 0 c
      (breaks, max least deepest, c)
  let (text, lineEnd, after, c) := blockLines (c.rest.length + 1) folded indent breaks c
  let tail := match chomping with
    | .strip => []
    | .clip => lineEnd
    | .keep => lineEnd ++ after
  return (text ++ tail, c)

end ParenLint.Yaml
