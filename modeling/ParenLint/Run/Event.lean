import ParenLint.Config.Settings

/-!
# Events of a run

What a run tells about itself, in order. Some events are shown to the person who started the run
and the others are only recorded.
-/

namespace ParenLint

open ParenLint.Config

/-- How much a recorded event matters. -/
inductive RecordLevel
  | debug
  | warning
  | error
  deriving DecidableEq, Repr

/-- The name of a level. -/
def RecordLevel.name : RecordLevel → String
  | debug => "DEBUG"
  | warning => "WARNING"
  | error => "ERROR"

/-- Where an event goes. -/
inductive Channel
  /-- Shown as progress. -/
  | step
  /-- Shown as a warning. -/
  | warning
  /-- Shown as an error. -/
  | error
  /-- Recorded and not shown. -/
  | record (level : RecordLevel)
  deriving DecidableEq, Repr

/-- Something that happened in a run. -/
inductive Event
  | ignoredKey (key : Value)
  | noFilesFound (targets : List String)
  | linting (files : Nat)
  | couldNotRead (path : String)
  | violationsFound (path : String) (count : Nat)
  | doneLinting (violations files : Nat)
  | correcting (files : Nat)
  | couldNotCorrect (path : String)
  | wrote (characters : Nat) (path : String)
  | correctionsMade (path : String) (count : Nat)
  | doneCorrecting (files corrections corrected : Nat)
  | invalidConfiguration (reason : String)
  | failed (reason : String)
  deriving Repr

namespace Event

/-- Where an event goes. -/
def channel : Event → Channel
  | ignoredKey _ => .record .warning
  | noFilesFound _ => .warning
  | linting _ | correcting _ | doneLinting _ _ | doneCorrecting _ _ _ => .step
  | couldNotRead _ | couldNotCorrect _ => .record .error
  | violationsFound _ _ | wrote _ _ | correctionsMade _ _ => .record .debug
  | invalidConfiguration _ | failed _ => .error

/-- The words for an event. -/
def message : Event → String
  | ignoredKey key => s!"Configuration Warning: ignoring unknown key '{key.display}'"
  | noFilesFound targets => "No Swift files found in " ++ ", ".intercalate targets
  | linting files => s!"Linting {files} Swift file(s)..."
  | couldNotRead path => s!"Could not read {path}"
  | violationsFound path count => s!"{path}: {count} violation(s)"
  | doneLinting violations files =>
    s!"Done linting! Found {violations} violation(s) in {files} file(s)."
  | correcting files => s!"Correcting {files} Swift file(s)..."
  | couldNotCorrect path => s!"Could not correct {path}"
  | wrote characters path => s!"Wrote {characters} characters to {path}"
  | correctionsMade path count => s!"{path}: {count} correction(s)"
  | doneCorrecting files corrections corrected =>
    s!"Done correcting {files} file(s)! {corrections} correction(s) in {corrected} file(s)."
  | invalidConfiguration reason => s!"Invalid configuration: {reason}"
  | failed reason => reason

end Event

end ParenLint
