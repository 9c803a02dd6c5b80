import ParenLint.Statement.Pattern
import ParenLint.Swift.Token

/-!
# Matches of a pattern

The matches of a pattern in a text are found from left to right. After a match the search goes on
behind it, so that matches do not overlap.
-/

namespace ParenLint

open ParenLint.Swift

/-- A stretch of a text from one offset up to but not including another. -/
structure Span where
  start : Int
  stop : Int
  deriving DecidableEq, Repr, Inhabited

/-- A place where a pattern fits. -/
structure Match where
  /-- Offset of the first character. -/
  start : Nat
  /-- The characters that the pattern covers. -/
  text : List Char
  /-- What the token at the first character is. -/
  kind : TokenKind
  /-- The part that the pattern records. -/
  captured : Option (List Char)
  deriving DecidableEq, Repr, Inhabited

namespace Match

/-- The number of characters covered. -/
def length (m : Match) : Nat := m.text.length

/-- Offset just after the last character. -/
def stop (m : Match) : Nat := m.start + m.length

/-- The stretch covered. -/
def span (m : Match) : Span := ⟨m.start, m.stop⟩

end Match

/-- The match of a pattern that begins a text, whose first character has offset `start`. -/
def Pattern.match? (p : Pattern) (kindAt : Nat → TokenKind) (start : Nat) (cs : List Char) :
    Option Match :=
  (p.split? cs).map fun parts =>
    { start, text := parts.flatten, kind := kindAt start, captured := p.captured? parts }

/-- The matches of a pattern in a text that begins at offset `start`. -/
def Pattern.matchesFrom (p : Pattern) (kindAt : Nat → TokenKind) (start : Nat) :
    List Char → List Match
  | [] => []
  | c :: rest =>
    match p.match? kindAt start (c :: rest) with
    | some m =>
      m :: p.matchesFrom kindAt (start + max 1 m.length) (rest.drop (m.length - 1))
    | none => p.matchesFrom kindAt (start + 1) rest
termination_by cs => cs.length
decreasing_by all_goals (simp only [List.length_cons, List.length_drop]; omega)

/-- The matches of a pattern in a text whose characters have the given kinds. -/
def Pattern.matches (p : Pattern) (kindAt : Nat → TokenKind) (contents : List Char) :
    List Match :=
  p.matchesFrom kindAt 0 contents

end ParenLint
