/-!
# Paths

A path is a list of names, either from the root or from the current directory. Reading a path drops
empty names and single dots but keeps double dots, whose meaning depends on what is before them.
-/

namespace ParenLint

/-- A path. -/
structure Path where
  /-- The slashes it begins with: none in a relative path. Two slashes are kept apart from one. -/
  slashes : Nat
  /-- The names from the first directory on. -/
  names : List String
  deriving DecidableEq, Repr, Inhabited

namespace Path

/-- The pieces of a text between slashes. -/
def splitSlashes : List Char → List (List Char)
  | [] => [[]]
  | c :: cs =>
    if c = '/' then [] :: splitSlashes cs
    else
      match splitSlashes cs with
      | [] => [[c]]
      | p :: ps => (c :: p) :: ps

/-- The number of slashes that are kept of those a path begins with. -/
def keptSlashes (count : Nat) : Nat := if count = 2 then 2 else min count 1

/-- The path that a text spells. -/
def parse (s : String) : Path :=
  let cs := s.toList
  { slashes := keptSlashes (cs.takeWhile (· = '/')).length
    names := ((splitSlashes cs).map String.ofList).filter fun n => n ≠ "" ∧ n ≠ "." }

/-- The spelling of a path. The current directory is a dot. -/
def render (p : Path) : String :=
  if p.slashes = 0 ∧ p.names = [] then "."
  else String.ofList (List.replicate p.slashes '/') ++ "/".intercalate p.names

/-- The path with names added at its end. -/
def append (p : Path) (names : List String) : Path := { p with names := p.names ++ names }

/-- The last name. -/
def name (p : Path) : String := p.names.getLast?.getD ""

/-- The end of a name from its last dot on. A dot at the beginning or at the end of the name begins
no suffix. -/
def suffixOf (name : String) : String :=
  let cs := name.toList
  let tail := (cs.reverse.takeWhile (· ≠ '.')).reverse
  let before := cs.length - tail.length
  if tail.isEmpty ∨ before ≤ 1 then "" else String.ofList ('.' :: tail)

/-- The suffix of the last name. -/
def suffix (p : Path) : String := suffixOf p.name

/-- A place: the names from the root on, without dots. -/
abbrev Place := List String

/-- Go from a place along a name. A double dot goes back, but not beyond the root. -/
def step (place : Place) (name : String) : Place :=
  if name = ".." then place.dropLast else place ++ [name]

/-- The place that a path names, seen from the current directory. -/
def resolve (cwd : Place) (p : Path) : Place :=
  p.names.foldl step (if p.slashes = 0 then cwd else [])

/-- The places that a path passes, up to the one that it names. -/
def stops (cwd : Place) (p : Path) : List Place :=
  (List.range (p.names.length + 1)).map fun n => resolve cwd { p with names := p.names.take n }

/-- A place and the places above it, up to the root. -/
def upward (place : Place) : List Place :=
  (List.range (place.length + 1)).reverse.map fun n => place.take n

/-- The path from the root to a place. -/
def ofPlace (place : Place) : Path := ⟨1, place⟩

end Path

end ParenLint
