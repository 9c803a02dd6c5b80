import ParenLint.Text.CharSet

/-!
# Blank characters

The characters that count as white space: the Unicode white space characters and the four
information separators.
-/

namespace ParenLint.Text

/-- The 29 blank code points. -/
def blanks : CharSet :=
  [(0x09, 0x0D), (0x1C, 0x20), (0x85, 0x85), (0xA0, 0xA0), (0x1680, 0x1680), (0x2000, 0x200A),
    (0x2028, 0x2029), (0x202F, 0x202F), (0x205F, 0x205F), (0x3000, 0x3000)]

/-- Whether `c` is white space. -/
def isBlank (c : Char) : Bool := blanks.containsChar c

/-- The text without the blanks at its end. -/
def dropTrailingBlanks (cs : List Char) : List Char :=
  (cs.reverse.dropWhile isBlank).reverse

/-- The text without the blanks at its two ends. -/
def trimBlanks (cs : List Char) : List Char :=
  dropTrailingBlanks (cs.dropWhile isBlank)

example : (blanks.map fun r => r.2 - r.1 + 1).sum = 29 := rfl

theorem isBlank_space : isBlank ' ' = true := rfl

end ParenLint.Text
