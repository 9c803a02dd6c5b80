import ParenLint.Rule.Description
import ParenLint.Rule.Severity
import ParenLint.Source.Location

/-!
# Violations and corrections

What a rule finds in a text, and what it has changed there.
-/

namespace ParenLint

/-- A place where a rule is broken. -/
structure Violation where
  ruleId : String
  ruleName : String
  severity : Severity
  reason : String
  location : Location
  deriving DecidableEq, Repr, Inhabited

/-- A place that was rewritten, located in the text before the rewriting. -/
structure Correction where
  ruleId : String
  ruleName : String
  location : Location
  deriving DecidableEq, Repr, Inhabited

namespace RuleDescription

/-- The violation of the rule at a place. -/
def violation (rule : RuleDescription) (severity : Severity) (location : Location) : Violation :=
  { ruleId := rule.identifier, ruleName := rule.name, severity, reason := rule.reason, location }

/-- The correction by the rule at a place. -/
def correction (rule : RuleDescription) (location : Location) : Correction :=
  { ruleId := rule.identifier, ruleName := rule.name, location }

end RuleDescription

end ParenLint
