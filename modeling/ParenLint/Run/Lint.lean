import ParenLint.Rule.Check
import ParenLint.Run.Workspace
import ParenLint.Suppression.Region
import ParenLint.Swift.Lexeme

/-!
# Linting

A lint run checks every selected file by every copy of the rule that is switched on, and leaves out
the violations in regions where the rule is suppressed. It changes nothing.
-/

namespace ParenLint

open ParenLint.Config ParenLint.Swift

/-- What a lint run that came to its end has found. -/
structure LintSummary where
  violations : List Violation
  /-- The number of files that were read. -/
  scanned : Nat
  deriving Repr, Inhabited

/-- The number of copies of the rule that the settings leave switched on. -/
def enabledCopies (settings : Config.Settings) (copies : Nat) : Nat :=
  if settings.isRuleEnabled controlStatement.identifier then copies else 0

/-- The violations in a file outside the regions where the rule is suppressed. -/
def unsuppressed (file : SourceFile) (severity : Severity) : List Violation :=
  let ts := tokens file.contents
  let commands := Command.regions file ts
  (check file (fun o => Token.kindAt ts o) severity).filter fun v =>
    Command.isEnabled commands file v.ruleId v.location.offset

/-- The violations that copies of the rule find in a file. -/
def lintFile (settings : Config.Settings) (copies : Nat) (file : SourceFile) :
    Except SettingsError (List Violation) :=
  match enabledCopies settings copies with
  | 0 => .ok []
  | n + 1 =>
    (settings.severityFor controlStatement.identifier).map fun severity =>
      (List.replicate (n + 1) (unsuppressed file severity)).flatten

/-- Lint one file of a workspace. -/
def lintPath (settings : Config.Settings) (copies : Nat) (w : Workspace) (path : String) :
    List Event × Except RunError (List Violation) :=
  match w.readSource path with
  | .error e => ([.couldNotRead path], .error (.read e))
  | .ok file =>
    match lintFile settings copies file with
    | .error e => ([], .error (.settings e))
    | .ok vs => ([.violationsFound path vs.length], .ok vs)

/-- Lint files one after the other, up to the first that fails. -/
def lintPaths (settings : Config.Settings) (copies : Nat) (w : Workspace) :
    List String → List Event × Except RunError (List Violation)
  | [] => ([], .ok [])
  | path :: paths =>
    match lintPath settings copies w path with
    | (events, .error e) => (events, .error e)
    | (events, .ok vs) =>
      let (more, result) := lintPaths settings copies w paths
      (events ++ more, result.map (vs ++ ·))

/-- What a run says about the files it has selected. -/
def selectionEvents (targets files : List String) : List Event :=
  if files.isEmpty then [.noFilesFound targets] else []

/-- Lint the files that targets stand for. -/
def lint (settings : Config.Settings) (copies : Nat) (w : Workspace) (targets : List String) :
    List Event × Except RunError LintSummary :=
  let files := w.selectedFiles settings targets
  let (events, result) := lintPaths settings copies w files
  (selectionEvents targets files ++ .linting files.length :: events,
    result.map fun vs => ⟨vs, files.length⟩)

end ParenLint
