import ParenLint.Swift.Keyword
import ParenLint.Swift.Token
import ParenLint.Text.Digit
import ParenLint.Text.Word

/-!
# Lexemes of Swift

For each form of lexeme, the number of characters of the lexeme that begins a text, if one does.
`lexeme?` tries the forms in a fixed order and classifies the first that fits.
-/

namespace ParenLint.Swift

open ParenLint.Text

/-! ### Comments -/

/-- A line comment runs up to the end of its line, the newline left out. -/
def lineComment? : List Char → Option Nat
  | '/' :: '/' :: rest => some (2 + (rest.takeWhile (· ≠ '\n')).length)
  | _ => none

/-- The length of what is left of a block comment inside `depth` others. Block comments nest, and
one that is never closed runs to the end of the text. -/
def blockCommentRest : Nat → List Char → Nat
  | _, [] => 0
  | depth, '/' :: '*' :: rest => 2 + blockCommentRest (depth + 1) rest
  | 0, '*' :: '/' :: _ => 2
  | depth + 1, '*' :: '/' :: rest => 2 + blockCommentRest depth rest
  | depth, _ :: rest => 1 + blockCommentRest depth rest

/-- A block comment. -/
def blockComment? : List Char → Option Nat
  | '/' :: '*' :: rest => some (2 + blockCommentRest 0 rest)
  | _ => none

/-! ### Strings -/

/-- The length of what is left of a multi-line string, its closing quotes included. A backslash
takes the next character with it, except a newline, which makes the literal ill-formed. -/
def multilineStringRest? : List Char → Option Nat
  | [] => none
  | '"' :: '"' :: '"' :: _ => some 3
  | '\\' :: [] => none
  | '\\' :: c :: rest => if c = '\n' then none else (multilineStringRest? rest).map (2 + ·)
  | _ :: rest => (multilineStringRest? rest).map (1 + ·)

/-- A multi-line string between triple quotes. -/
def multilineString? : List Char → Option Nat
  | '"' :: '"' :: '"' :: rest => (multilineStringRest? rest).map (3 + ·)
  | _ => none

/-- The length of what is left of a string on one line. It ends with its closing quote, or without
one where the line ends or a backslash has nothing on the line to escape. -/
def stringRest : List Char → Nat
  | [] => 0
  | '"' :: _ => 1
  | '\n' :: _ => 0
  | '\\' :: [] => 0
  | '\\' :: c :: rest => if c = '\n' then 0 else 2 + stringRest rest
  | _ :: rest => 1 + stringRest rest

/-- A string on one line. -/
def string? : List Char → Option Nat
  | '"' :: rest => some (1 + stringRest rest)
  | _ => none

/-! ### Numbers and names -/

/-- A digit of any script or an underscore. -/
def isDigitOrUnderscore (c : Char) : Bool := isDecimalDigit c || c == '_'

/-- Digits and underscores that begin with a digit. -/
def digits? : List Char → Option Nat
  | c :: rest =>
    if isDecimalDigit c then some (1 + (rest.takeWhile isDigitOrUnderscore).length) else none
  | [] => none

/-- The length of a fraction: a point and digits. -/
def fraction : List Char → Nat
  | '.' :: rest =>
    match digits? rest with
    | some n => 1 + n
    | none => 0
  | _ => 0

/-- A number: digits with an optional fraction. -/
def number? (cs : List Char) : Option Nat :=
  (digits? cs).map fun n => n + fraction (cs.drop n)

/-- A name between backticks on one line. -/
def quotedName? : List Char → Option Nat
  | '\x60' :: rest =>
    let name := rest.takeWhile fun c => c ≠ '\x60' ∧ c ≠ '\n'
    match name, rest.drop name.length with
    | _ :: _, '\x60' :: _ => some (name.length + 2)
    | _, _ => none
  | _ => none

/-- An ASCII letter or an underscore. -/
def isNameStart (c : Char) : Bool := c.isAlpha || c == '_'

/-- An ASCII letter or digit or an underscore. -/
def isNameChar (c : Char) : Bool := c.isAlphanum || c == '_'

/-- An attribute or a compiler directive: a name after an at sign or a number sign. -/
def directive? : List Char → Option Nat
  | c :: d :: rest =>
    if (c = '@' ∨ c = '#') ∧ isNameStart d then some (2 + (rest.takeWhile isWordChar).length)
    else none
  | _ => none

/-- An ASCII identifier or keyword. -/
def name? : List Char → Option Nat
  | c :: rest => if isNameStart c then some (1 + (rest.takeWhile isNameChar).length) else none
  | [] => none

/-- A name is a keyword if it spells one and an identifier otherwise. -/
def nameKind (word : List Char) : TokenKind :=
  if isKeyword word then .keyword else .identifier

/-! ### The first lexeme of a text -/

/-- The lexeme that begins the text: its kind and its length. -/
def lexeme? (cs : List Char) : Option (TokenKind × Nat) :=
  (lineComment? cs).map (.comment, ·)
    <|> (blockComment? cs).map (.comment, ·)
    <|> (multilineString? cs).map (.string, ·)
    <|> (string? cs).map (.string, ·)
    <|> (number? cs).map (.number, ·)
    <|> (quotedName? cs).map (.identifier, ·)
    <|> (directive? cs).map (.other, ·)
    <|> (name? cs).map fun n => (nameKind (cs.take n), n)

/-- The tokens of a text that begins at offset `start`: the lexeme found here, or else one
character skipped, and the tokens of the rest. -/
def tokensFrom (start : Nat) : List Char → List Token
  | [] => []
  | c :: rest =>
    match lexeme? (c :: rest) with
    | some (kind, n) => ⟨start, n, kind⟩ :: tokensFrom (start + n) (rest.drop (n - 1))
    | none => tokensFrom (start + 1) rest
termination_by cs => cs.length
decreasing_by all_goals (simp only [List.length_cons, List.length_drop]; omega)

/-- The tokens of a text, in order. -/
def tokens (contents : List Char) : List Token := tokensFrom 0 contents

end ParenLint.Swift
