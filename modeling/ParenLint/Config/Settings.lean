import ParenLint.Config.Value
import ParenLint.Report.Reporter
import ParenLint.Rule.Severity
import ParenLint.Text.Blank

/-!
# Settings

The settings of the linter are a mapping. It says which rules are off, which paths are linted,
which reporter writes the report and how severe the violations of each rule are.
-/

namespace ParenLint.Config

open ParenLint.Text

/-- Why a mapping does not give settings. -/
inductive SettingsError
  /-- The value of the key has to be a list. -/
  | notAList (key : String)
  /-- There is no such reporter. -/
  | unknownReporter (reporter : Value)
  /-- There is no such severity. -/
  | invalidSeverity (severity : Value)
  deriving Repr

namespace SettingsError

/-- The message of an error. -/
def message : SettingsError → String
  | notAList key => s!"Configuration key '{key}' must be a list"
  | unknownReporter reporter => Reporter.unknownMessage reporter.inspect
  | invalidSeverity severity =>
    s!"Invalid severity {severity.inspect}; expected one of "
      ++ ", ".intercalate (Severity.all.map Severity.name)

end SettingsError

/-! ### Severities -/

/-- The severity that a text names, blanks at its ends and the case of its letters aside. -/
def severityNamed? (s : String) : Option Severity :=
  Severity.ofName? (String.ofList ((trimBlanks s.toList).map Char.toLower))

/-- The value that gives the severity in the entry of a rule: a mapping gives it under a key of its
own and means a warning without that key. -/
def severityValue : Value → Value
  | .mapping entries => (Entries.get? entries "severity").getD (.string Severity.warning.name)
  | v => v

/-- The severity in the entry of a rule. -/
def severityOf (entry : Value) : Except SettingsError Severity :=
  match severityValue entry with
  | .string s =>
    match severityNamed? s with
    | some severity => .ok severity
    | none => .error (.invalidSeverity (.string s))
  | v => .error (.invalidSeverity v)

/-! ### Settings -/

/-- Settings, as the mapping that they were read from. -/
structure Settings where
  entries : Entries
  deriving Repr, Inhabited

/-- The keys whose value is a list. -/
def listKeys : List String := ["disabled_rules", "included", "excluded"]

/-- The key that names the reporter. -/
def reporterKey : String := "reporter"

/-- Whether a key is not the entry of a rule. -/
def isKnownKey : Value → Bool
  | .string s => (reporterKey :: listKeys).contains s
  | _ => false

/-- Whether an entry is checked as the entry of a rule. Any other unknown entry is ignored. -/
def isRuleEntry : Value → Bool
  | .string _ | .mapping _ => true
  | _ => false

/-- The first key that should have a list and does not. -/
def firstNotAList? (es : Entries) : Option String :=
  listKeys.find? fun key =>
    match Entries.get? es key with
    | none | some .null | some (.list _) => false
    | some _ => true

/-- The reporter that is named, if there is no such reporter. -/
def badReporter? (es : Entries) : Option Value :=
  match Entries.get? es reporterKey with
  | none => none
  | some (.string s) => if (Reporter.ofName? s).isSome then none else some (.string s)
  | some v => some v

/-- Go through the entries of rules. The keys that are ignored are collected, in order, up to the
first entry that is at fault. -/
def checkRuleEntries : List (Value × Value) → List Value × Except SettingsError Unit
  | [] => ([], .ok ())
  | (key, value) :: rest =>
    if isKnownKey key then checkRuleEntries rest
    else if isRuleEntry value then
      match severityOf value with
      | .ok _ => checkRuleEntries rest
      | .error e => ([], .error e)
    else
      let (ignored, result) := checkRuleEntries rest
      (key :: ignored, result)

namespace Settings

/-- The settings that a mapping gives, and the keys of it that are ignored. -/
def ofEntries (es : Entries) : List Value × Except SettingsError Settings :=
  match firstNotAList? es, badReporter? es with
  | some key, _ => ([], .error (.notAList key))
  | none, some reporter => ([], .error (.unknownReporter reporter))
  | none, none =>
    let (ignored, result) := checkRuleEntries es
    (ignored, result.map fun _ => ⟨es⟩)

/-- The texts listed under a key. -/
def texts (s : Settings) (key : String) : List String :=
  match Entries.get? s.entries key with
  | some (.list items) => items.map Value.display
  | _ => []

/-- The rules that are switched off. -/
def disabledRules (s : Settings) : List String := s.texts "disabled_rules"

/-- The paths that are linted. All are if there is none. -/
def included (s : Settings) : List String := s.texts "included"

/-- The paths that are not linted. -/
def excluded (s : Settings) : List String := s.texts "excluded"

/-- The name of the reporter. -/
def reporter (s : Settings) : String :=
  match Entries.get? s.entries reporterKey with
  | some v => v.display
  | none => Reporter.standard.name

/-- Whether a rule is not switched off. -/
def isRuleEnabled (s : Settings) (ruleId : String) : Bool := !s.disabledRules.contains ruleId

/-- The severity of the violations of a rule. Without an entry they are warnings. -/
def severityFor (s : Settings) (ruleId : String) : Except SettingsError Severity :=
  match Entries.get? s.entries ruleId with
  | some entry => severityOf entry
  | none => .ok .warning

end Settings

end ParenLint.Config
