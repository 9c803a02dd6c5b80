import ParenLint.Order.Sort
import ParenLint.Statement.Match
import ParenLint.Suppression.Command

/-!
# Regions of suppression

The commands of a file, expanded and sorted by their places, say at each place which rules are
enabled: all are at the beginning, and each command switches the rules that it names.
-/

namespace ParenLint

open ParenLint.Swift

namespace Command

/-- Whether a command acts no later than a place. -/
def ActsBy (c : Command) (line character : Int) : Prop :=
  c.line < line ∨ c.line = line ∧ c.character ≤ character

instance (c : Command) (line character : Int) : Decidable (c.ActsBy line character) :=
  inferInstanceAs (Decidable (_ ∨ _ ∧ _))

/-- Sort commands by their places. Commands at one place keep their order. -/
def sort (cs : List Command) : List Command :=
  sortBy (fun c d => c.ActsBy d.line d.character) cs

/-- What a command leaves of the enablement of a rule. -/
def switch (rule : String) (enabled : Bool) (c : Command) : Bool :=
  if rule ∈ c.rules then c.action = .enable else enabled

/-- Whether sorted commands leave a rule enabled at a place. -/
def enabledAt (cs : List Command) (rule : String) (line character : Int) : Bool :=
  (cs.takeWhile fun c => c.ActsBy line character).foldl (switch rule) true

/-- The expanded commands in the comments of a file, sorted by their places. -/
def regions (file : SourceFile) (tokens : List Token) : List Command :=
  sort ((inComments file tokens).flatMap expand)

/-- Whether sorted commands leave a rule enabled at an offset of a file. -/
def isEnabled (cs : List Command) (file : SourceFile) (rule : String) (offset : Int) : Bool :=
  let l := file.location offset
  enabledAt cs rule l.line l.character

/-- The spans at whose start sorted commands leave a rule enabled. -/
def keepEnabled (cs : List Command) (file : SourceFile) (spans : List Span) (rule : String) :
    List Span :=
  spans.filter fun s => isEnabled cs file rule s.start

end Command

end ParenLint
