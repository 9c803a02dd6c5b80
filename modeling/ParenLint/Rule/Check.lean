import ParenLint.Rule.Violation
import ParenLint.Source.SourceFile
import ParenLint.Statement.Wrapping

/-!
# Finding wrapped conditionals

Every match of the pattern of a statement kind that is no false positive is a violation. The kinds
are looked for one after the other, each in the order of the text.
-/

namespace ParenLint

open ParenLint.Swift

/-- The wrapped conditionals that a pattern finds. -/
def Pattern.wrapped (p : Pattern) (kindAt : Nat → TokenKind) (contents : List Char) :
    List Match :=
  (p.matches kindAt contents).filter fun m => !m.isFalsePositive

theorem Pattern.mem_wrapped {p : Pattern} {kindAt : Nat → TokenKind} {contents : List Char}
    {m : Match} : m ∈ p.wrapped kindAt contents ↔
      m ∈ p.matches kindAt contents ∧ m.isFalsePositive = false := by
  simp [Pattern.wrapped]

/-- The violations in a file whose characters have the given kinds. -/
def check (file : SourceFile) (kindAt : Nat → TokenKind) (severity : Severity) :
    List Violation :=
  StatementKind.all.flatMap fun kind =>
    ((Pattern.statement kind).wrapped kindAt file.contents).map fun m =>
      controlStatement.violation severity (file.location m.start)

end ParenLint
