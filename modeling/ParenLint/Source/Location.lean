/-!
# Locations

A location names a character of a text by its line and its place on that line, both counted from
one. It is found from the offsets at which the lines start.
-/

namespace ParenLint

/-- A place in a text, which may have a file name. -/
structure Location where
  /-- The file, if the text has one. -/
  file : Option String
  /-- Offset into the text. -/
  offset : Int
  /-- The line, counted from one. -/
  line : Int
  /-- The place on the line, counted from one. -/
  character : Int
  deriving DecidableEq, Repr, Inhabited

namespace Location

/-- Stands for the name of a file that has none. -/
def noPath : String := "<nopath>"

/-- The location as messages show it: file, line and character. -/
def render (l : Location) : String :=
  let file := match l.file with
    | some f => if f.isEmpty then noPath else f
    | none => noPath
  s!"{file}:{l.line}:{l.character}"

end Location

/-- The offsets just after the newlines of a text that begins at `offset`. -/
def lineStartsAfter (offset : Nat) : List Char → List Nat
  | [] => []
  | c :: rest =>
    if c = '\n' then (offset + 1) :: lineStartsAfter (offset + 1) rest
    else lineStartsAfter (offset + 1) rest

/-- The offsets at which the lines of a text start. -/
def lineStarts (contents : List Char) : List Nat := 0 :: lineStartsAfter 0 contents

/-- Line and character of an offset, given the starts of the lines. The line is the number of lines
that start no later. An offset before the text is on line zero and measured from the last line. -/
def positionIn (starts : List Nat) (offset : Int) : Int × Int :=
  let begun := starts.takeWhile fun s : Nat => (s : Int) ≤ offset
  let start : Nat := (begun.getLast? <|> starts.getLast?).getD 0
  (begun.length, offset - (start : Int) + 1)

end ParenLint
