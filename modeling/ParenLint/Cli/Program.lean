import ParenLint.Cli.Invocation
import ParenLint.Report.Render
import ParenLint.Run.Autocorrect
import ParenLint.Run.Configuration

/-!
# The program

A task is carried out on a workspace. Its result is what the program puts out, in order, the
workspace afterwards and how the program ends. A run that finds a violation of severity error ends
with a status of its own, and so does one that cannot be carried out.
-/

namespace ParenLint.Cli

open ParenLint.Config

/-- What the program puts out. -/
inductive Output
  /-- Something that happened. -/
  | event (e : Event)
  /-- A report. -/
  | report (text : String)
  deriving Repr

/-- How the program ends. -/
inductive Ending
  /-- With a status. -/
  | status (code : Nat)
  /-- By an error about which nothing is said. -/
  | aborted (e : ConfigurationError)
  deriving Repr

/-- What a task came to. -/
structure Outcome where
  outputs : List Output
  workspace : Workspace
  ending : Ending

/-! ### Output -/

/-- The name under which the program speaks. -/
def programName : String := "control-statement"

/-- The line that shows an event, if it is shown. -/
def shownLine? (e : Event) : Option String :=
  match e.channel with
  | .step => some s!"[{programName}] {e.message}\n"
  | .warning => some s!"[{programName}] WARNING: {e.message}\n"
  | .error => some s!"[{programName}] ERROR: {e.message}\n"
  | .record _ => none

/-- The level at which an event is recorded. Every event is. -/
def recordLevel (e : Event) : RecordLevel :=
  match e.channel with
  | .record level => level
  | _ => .debug

namespace Outcome

/-- The events of a run. -/
def events (o : Outcome) : List Event :=
  o.outputs.filterMap fun
    | .event e => some e
    | .report _ => none

/-- The text on the standard output. -/
def reports (o : Outcome) : String :=
  String.join <| o.outputs.filterMap fun
    | .event _ => none
    | .report text => some text

/-- The text on the standard error output. -/
def notices (o : Outcome) : String := String.join (o.events.filterMap shownLine?)

/-- The outcome with events before it. -/
def after (events : List Event) (o : Outcome) : Outcome :=
  { o with outputs := events.map .event ++ o.outputs }

end Outcome

/-- A report, if there is anything in it. -/
def reported (text : String) : List Output := if text = "" then [] else [.report (text ++ "\n")]

/-! ### Tasks -/

/-- The status of a run that could not be carried out. -/
def failedStatus : Nat := 1

/-- The status of a lint run, given whether a violation is an error. -/
def lintStatus (errors : Bool) : Nat := if errors then 2 else 0

/-- The outcome of a task that ends with an event of failure. -/
def failed (w : Workspace) (e : Event) : Outcome := ⟨[.event e], w, .status failedStatus⟩

/-- The outcome of a run that ended early. -/
def stopped (w : Workspace) : RunError → Outcome
  | .read e => failed w (.failed e.message)
  | .write e => failed w (.failed e.message)
  | .settings e => ⟨[], w, .aborted (.settings e)⟩

/-- Load settings and go on with them. -/
def withSettings (w : Workspace) (configuration : Option String) (next : Settings → Outcome) :
    Outcome :=
  let (events, result) := w.settings configuration
  let outcome := match result with
    | .ok settings => next settings
    | .error e =>
      if e.isTold then failed w (.invalidConfiguration e.message) else ⟨[], w, .aborted e⟩
  outcome.after events

/-- Lint and report in a form. -/
def lintAndReport (w : Workspace) (settings : Settings) (r : Reporter) (targets : List String) :
    Outcome :=
  let (events, result) := lint settings 1 w targets
  let outcome : Outcome := match result with
    | .error e => stopped w e
    | .ok summary =>
      { outputs := reported (r.render summary.violations) ++
          [.event (.doneLinting summary.violations.length summary.scanned)]
        workspace := w
        ending := .status (lintStatus (hasErrors summary.violations)) }
  outcome.after events

/-- Lint and report in the form of a name. -/
def lintTask (w : Workspace) (reporter : Option String) (targets : List String)
    (settings : Settings) : Outcome :=
  let name := reporter.getD settings.reporter
  match Reporter.ofName? name with
  | some r => lintAndReport w settings r targets
  | none => failed w (.failed (Reporter.unknownMessage (Text.quoted name)))

/-- Correct and report. -/
def autocorrectTask (w : Workspace) (targets : List String) (settings : Settings) : Outcome :=
  let run := autocorrect settings 1 w targets
  let outcome : Outcome := match run.outcome with
    | .error e => stopped run.workspace e
    | .ok summary =>
      { outputs := reported (Reporter.renderCorrections summary.corrections) ++
          [.event (.doneCorrecting summary.scanned summary.corrections.length summary.corrected)]
        workspace := run.workspace
        ending := .status 0 }
  outcome.after run.events

/-- The lines that describe a rule. -/
def ruleLines (d : RuleDescription) : String :=
  s!"{d.identifier}: {d.name} (correctable: yes)\n    {d.reason}\n"

/-- Carry out a task. -/
def Task.run (w : Workspace) : Task → Outcome
  | lint configuration reporter targets =>
    withSettings w configuration (lintTask w reporter targets)
  | autocorrect configuration targets => withSettings w configuration (autocorrectTask w targets)
  | rules => ⟨[.report (ruleLines controlStatement)], w, .status 0⟩

end ParenLint.Cli
