import ParenLint.Rule.Description

/-!
# The parts of the program

The parts that the program is put together from are registered under names. A part that is
registered later takes the place of an earlier one of the same name.
-/

namespace ParenLint

/-- A part of the program. -/
inductive Component
  /-- Shows the events of a run. -/
  | console
  /-- Finds and selects files. -/
  | fileSystem
  /-- The rules that are run. -/
  | rules (descriptions : List RuleDescription)
  /-- A text that stands for a part. -/
  | text (s : String)
  /-- A number that stands for a part. -/
  | number (n : Int)
  deriving Repr

/-- There is no part of the name. -/
structure NotRegistered where
  name : String
  deriving DecidableEq, Repr

/-- The message about a missing part. -/
def NotRegistered.message (e : NotRegistered) : String := s!"Dependency '{e.name}' not registered."

/-- The registered parts, the latest first. -/
structure Registry where
  components : List (String × Component)
  deriving Repr

namespace Registry

/-- The parts of the program as it comes. -/
def standard : Registry :=
  ⟨[("TelemetryPort", .console), ("FileSystemGateway", .fileSystem),
    ("Rules", .rules [controlStatement])]⟩

/-- Register a part under a name. -/
def register (r : Registry) (name : String) (c : Component) : Registry :=
  ⟨(name, c) :: r.components⟩

/-- The part of a name. -/
def find (r : Registry) (name : String) : Except NotRegistered Component :=
  match r.components.find? (·.1 == name) with
  | some (_, c) => .ok c
  | none => .error ⟨name⟩

end Registry

end ParenLint
