import Mathlib.Data.List.Forall2
import ParenLint.Proofs.Json.RoundTrip
import ParenLint.Report.Render

/-!
# The JSON report

The report can be read back: it has a row for each violation, in their order, and a row tells all
that a line of the other report would tell.
-/

namespace ParenLint

/-- The row has the fields of the violation, and a severity that tells which one is meant. -/
structure Violation.ReportedBy (v : Violation) (row : Json) : Prop where
  file : row.member? "file" = some (v.location.file.elim .null .string)
  line : row.member? "line" = some (.int v.location.line)
  character : row.member? "character" = some (.int v.location.character)
  severity (s : Severity) : row.member? "severity" = some (.string s.title) ↔ s = v.severity
  type : row.member? "type" = some (.string v.ruleName)
  ruleId : row.member? "rule_id" = some (.string v.ruleId)
  reason : row.member? "reason" = some (.string v.reason)

namespace Violation

lemma reportedBy_row (v : Violation) : v.ReportedBy v.row where
  file := by cases h : v.location.file <;> simp [row, Json.member?, h]
  line := by simp [row, Json.member?]
  character := by simp [row, Json.member?]
  severity s := by
    cases s <;> cases hv : v.severity <;> simp [row, Json.member?, hv, Severity.title]
  type := by simp [row, Json.member?]
  ruleId := by simp [row, Json.member?]
  reason := by simp [row, Json.member?]

lemma isExact_row (v : Violation) : v.row.IsExact := by
  cases h : v.location.file <;> simp [row, h, Json.IsExact, Json.HasExactMembers]

end Violation

lemma isExact_rows (vs : List Violation) : (Json.array (vs.map Violation.row)).IsExact := by
  change Json.AreExact (vs.map Violation.row)
  induction vs with
  | nil => trivial
  | cons v vs ih => exact ⟨v.isExact_row, ih⟩

lemma forall₂_reportedBy (vs : List Violation) :
    List.Forall₂ Violation.ReportedBy vs (vs.map Violation.row) :=
  List.forall₂_map_right_iff.mpr (List.forall₂_same.mpr fun v _ => v.reportedBy_row)

/-- The report is in ASCII, and reading it back as JSON gives an array of one row for each
violation, in their order. -/
theorem json_report_is_read_back (vs : List Violation) :
    (∀ c ∈ (Reporter.json.render vs).toList, c.toNat < 128) ∧
      ∃ rows, Json.parse? (Reporter.json.render vs).toList = some (.array rows) ∧
        List.Forall₂ Violation.ReportedBy vs rows := by
  simp only [Reporter.render, String.toList_ofList]
  refine ⟨?_, vs.map Violation.row, ?_, forall₂_reportedBy vs⟩
  · exact Json.isAscii_renderAt Json.Layout.isReadable_indented 0 _ (isExact_rows vs)
  · exact Json.parse?_render Json.Layout.isReadable_indented (isExact_rows vs)

end ParenLint
