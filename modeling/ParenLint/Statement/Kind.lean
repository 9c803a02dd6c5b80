/-!
# Control statements

The statements whose condition can be wrapped in redundant parentheses.
-/

namespace ParenLint

/-- A control statement with a condition. -/
inductive StatementKind
  | «if»
  | «for»
  | guard
  | switch
  | «while»
  deriving DecidableEq, Repr, Inhabited

namespace StatementKind

/-- The word that opens the statement. -/
def keyword : StatementKind → String
  | «if» => "if"
  | «for» => "for"
  | guard => "guard"
  | switch => "switch"
  | «while» => "while"

/-- All kinds, in the order in which they are looked for. -/
def all : List StatementKind := [«if», «for», guard, switch, «while»]

/-- The kind that a word opens. -/
def ofKeyword? (s : String) : Option StatementKind := all.find? (·.keyword == s)

end StatementKind

end ParenLint
