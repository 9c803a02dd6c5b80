import ParenLint.Statement.Match

/-!
# Which matches are wrapped conditionals

A pattern also fits where the parentheses do not enclose the whole condition, as in
`if (a || b) && (c || d) {`. There the parenthesis that was opened first is closed before the last
closing one.
-/

namespace ParenLint

open ParenLint.Swift

/-- Whether at depth `depth` the outermost parenthesis closes before the last closing parenthesis
of the text. -/
def closesEarly (depth : Int) : List Char → Bool
  | [] => false
  | c :: rest =>
    if c = ')' then (depth == 1 && rest.contains ')') || closesEarly (depth - 1) rest
    else if c = '(' then closesEarly (depth + 1) rest
    else closesEarly depth rest

/-- Whether a matched text is no wrapped conditional: it does not begin with a keyword, or its
first parenthesis closes early. -/
def isFalsePositive (text : List Char) (kind : Option TokenKind) : Bool :=
  kind ≠ some .keyword || closesEarly 0 text

/-- Whether a match is no wrapped conditional. -/
def Match.isFalsePositive (m : Match) : Bool := ParenLint.isFalsePositive m.text (some m.kind)

end ParenLint
