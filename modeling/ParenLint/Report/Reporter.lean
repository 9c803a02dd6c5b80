/-!
# Reporters

The forms in which violations can be reported, and their names.
-/

namespace ParenLint

/-- A form of report. -/
inductive Reporter
  /-- One line for each violation. -/
  | xcode
  /-- One JSON array with an object for each violation. -/
  | json
  deriving DecidableEq, Repr, Inhabited

namespace Reporter

/-- The name of a form of report. -/
def name : Reporter → String
  | xcode => "xcode"
  | json => "json"

/-- All forms. -/
def all : List Reporter := [xcode, json]

/-- The form of the given name. -/
def ofName? (s : String) : Option Reporter := all.find? (·.name == s)

/-- The form that is used if none is named. -/
def standard : Reporter := xcode

/-- The message about a form that does not exist, given what was named instead. -/
def unknownMessage (shown : String) : String :=
  s!"Unknown reporter {shown}; expected one of " ++ ", ".intercalate (all.map name)

end Reporter

end ParenLint
