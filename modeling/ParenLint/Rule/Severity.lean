/-!
# Severities

How serious a violation is. An error makes a lint run fail; a warning does not.
-/

namespace ParenLint

/-- The severity of a violation. -/
inductive Severity
  | warning
  | error
  deriving DecidableEq, Repr, Inhabited

namespace Severity

/-- The name of a severity. -/
def name : Severity → String
  | warning => "warning"
  | error => "error"

/-- The name as a title. -/
def title : Severity → String
  | warning => "Warning"
  | error => "Error"

/-- All severities. -/
def all : List Severity := [warning, error]

/-- The severity of the given name. -/
def ofName? (s : String) : Option Severity := all.find? (·.name == s)

end Severity

end ParenLint
