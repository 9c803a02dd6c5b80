import ParenLint.Json.Printer
import ParenLint.Report.Reporter
import ParenLint.Rule.Violation

/-!
# Reports

Violations are reported as lines that a development environment can follow, or as JSON. Corrections
are always reported as lines.
-/

namespace ParenLint

namespace Violation

/-- The violation on one line. -/
def line (v : Violation) : String :=
  s!"{v.location.render}: {v.severity.name}: {v.ruleName} Violation: {v.reason} ({v.ruleId})"

/-- The violation as a JSON object. -/
def row (v : Violation) : Json :=
  .object
    [("file", match v.location.file with | some f => .string f | none => .null),
      ("line", .int v.location.line),
      ("character", .int v.location.character),
      ("severity", .string v.severity.title),
      ("type", .string v.ruleName),
      ("rule_id", .string v.ruleId),
      ("reason", .string v.reason)]

end Violation

/-- The correction on one line. -/
def Correction.line (c : Correction) : String := s!"{c.location.render} Corrected {c.ruleName}"

namespace Reporter

/-- The report of violations, in their order. -/
def render (r : Reporter) (vs : List Violation) : String :=
  match r with
  | xcode => "\n".intercalate (vs.map Violation.line)
  | json => String.ofList (Json.render .indented (.array (vs.map Violation.row)))

/-- The report of corrections, in their order. -/
def renderCorrections (cs : List Correction) : String :=
  "\n".intercalate (cs.map Correction.line)

end Reporter

/-- Whether one of the violations is an error. -/
def hasErrors (vs : List Violation) : Bool := vs.any fun v => v.severity = .error

end ParenLint
