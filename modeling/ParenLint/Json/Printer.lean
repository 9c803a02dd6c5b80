import ParenLint.Json.Basic
import ParenLint.Number.Decimal

/-!
# Writing JSON

Values are written in ASCII alone: every other character is escaped by the UTF-16 units that stand
for it. The text is spread over lines by an indentation, or stands on one line.
-/

namespace ParenLint.Json

/-! ### Strings -/

/-- Four hexadecimal digits in lower case. -/
def hex4 (n : Nat) : List Char :=
  [n / 4096 % 16, n / 256 % 16, n / 16 % 16, n % 16].map Nat.digitChar

/-- The escape of one UTF-16 unit. -/
def escapeUnit (n : Nat) : List Char := '\\' :: 'u' :: hex4 n

/-- The escape of a code point: one unit, or two beyond the first plane. -/
def escapeCodePoint (n : Nat) : List Char :=
  if n < 0x10000 then escapeUnit n
  else escapeUnit (0xD800 + (n - 0x10000) / 0x400) ++ escapeUnit (0xDC00 + (n - 0x10000) % 0x400)

/-- How a character is written inside a string. -/
def escapeChar (c : Char) : List Char :=
  if c = '"' then ['\\', '"']
  else if c = '\\' then ['\\', '\\']
  else if c = '\n' then ['\\', 'n']
  else if c = '\r' then ['\\', 'r']
  else if c = '\t' then ['\\', 't']
  else if c = '\x08' then ['\\', 'b']
  else if c = '\x0c' then ['\\', 'f']
  else if ' ' ≤ c ∧ c ≤ '~' then [c]
  else escapeCodePoint c.toNat

/-- A string between quotes. -/
def renderString (cs : List Char) : List Char := '"' :: (cs.flatMap escapeChar ++ ['"'])

/-! ### Values -/

/-- How a text is spread over lines. -/
structure Layout where
  /-- The spaces by which each level of nesting is indented, or nothing for a text on one line. -/
  indent : Option Nat
  /-- What separates items on one line. -/
  itemSeparator : List Char

/-- Two spaces for each level. -/
def Layout.indented : Layout := ⟨some 2, [',']⟩

/-- One line, with a space after each comma. -/
def Layout.oneLine : Layout := ⟨none, [',', ' ']⟩

/-- What stands between a bracket and an item at the given depth. -/
def Layout.gap (l : Layout) (depth : Nat) : List Char :=
  match l.indent with
  | some k => '\n' :: List.replicate (k * depth) ' '
  | none => []

mutual

/-- The text of a value at the given depth of nesting. -/
def renderAt (l : Layout) (depth : Nat) : Json → List Char
  | null => ['n', 'u', 'l', 'l']
  | bool true => ['t', 'r', 'u', 'e']
  | bool false => ['f', 'a', 'l', 's', 'e']
  | int n => (toString n).toList
  | float x => x.render.toList
  | string s => renderString s.toList
  | array [] => ['[', ']']
  | array (x :: xs) =>
    '[' :: l.gap (depth + 1) ++ renderAt l (depth + 1) x ++ renderItems l (depth + 1) xs
      ++ l.gap depth ++ [']']
  | object [] => ['{', '}']
  | object ((k, x) :: ms) =>
    '{' :: l.gap (depth + 1) ++ renderString k.toList ++ [':', ' '] ++ renderAt l (depth + 1) x
      ++ renderMembers l (depth + 1) ms ++ l.gap depth ++ ['}']

/-- The text of the items after the first. -/
def renderItems (l : Layout) (depth : Nat) : List Json → List Char
  | [] => []
  | x :: xs => l.itemSeparator ++ l.gap depth ++ renderAt l depth x ++ renderItems l depth xs

/-- The text of the members after the first. -/
def renderMembers (l : Layout) (depth : Nat) : List (String × Json) → List Char
  | [] => []
  | (k, x) :: ms =>
    l.itemSeparator ++ l.gap depth ++ renderString k.toList ++ [':', ' '] ++ renderAt l depth x
      ++ renderMembers l depth ms

end

/-- The text of a value. -/
def render (l : Layout) (x : Json) : List Char := renderAt l 0 x

end ParenLint.Json
