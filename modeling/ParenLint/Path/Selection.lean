import ParenLint.Path.Basic

/-!
# Selection of paths

Of a list of paths those are selected that lie under an included path, if there are any, and under
no excluded one. Paths are compared by the names of their places and not by their spelling.
-/

namespace ParenLint

namespace Path

/-- Whether a place is, or lies in, the place of a root. -/
def isUnder (place root : Place) : Bool := root.isPrefixOf place

/-- Whether a path lies under one of some paths. -/
def liesUnder (cwd : Place) (path : String) (roots : List String) : Bool :=
  roots.any fun root => isUnder (resolve cwd (parse path)) (resolve cwd (parse root))

/-- The selected paths, in their order and spelling. -/
def select (cwd : Place) (included excluded paths : List String) : List String :=
  paths.filter fun path =>
    (included.isEmpty || liesUnder cwd path included) && !liesUnder cwd path excluded

/-- The paths given, or the current directory if none is given. -/
def targets (paths : List String) : List String :=
  if paths.isEmpty then ["."] else paths.map fun p => (parse p).render

end Path

end ParenLint
